import JobQueue.Proofs.Json.Range
import JobQueue.Proofs.Record.Objects

/-! # Integers in records

An integer of 64 bits that stands anywhere in the arguments or the variables of a job is decoded as itself and
encoded with the same digits. Any other integer is decoded as a double, or is out of range; it never becomes
another integer. Numbers that are out of range are the only ones for which a record is refused.
-/

namespace JobQueue

open Json

/-! ## Readers of records -/

namespace Json

theorem Tree.string?_tamed (tree : Tree) : tree.tamed.string? = tree.string? := by
  cases tree with
  | number negative body => rw [tamed]; split <;> rfl
  | _ => rfl

theorem Tree.bool?_tamed (tree : Tree) : tree.tamed.bool? = tree.bool? := by
  cases tree with
  | number negative body => rw [tamed]; split <;> rfl
  | _ => rfl

theorem Tree.date?_tamed (formats : List DateFormat) (tree : Tree) :
    tree.tamed.date? formats = tree.date? formats := by
  rw [date?, date?, string?_tamed]

theorem string_overflows (expected : String) (depth : Nat) :
    Overflows (string expected) depth Tree.string? :=
  (string_views expected depth).overflows Tree.string?_tamed

theorem bool_overflows (expected : String) (depth : Nat) : Overflows (bool expected) depth Tree.bool? :=
  (bool_views expected depth).overflows Tree.bool?_tamed

end Json

namespace Record

theorem date_overflows (formats : List DateFormat) (depth : Nat) :
    Overflows (date formats) depth (Tree.date? formats) :=
  (date_views formats depth).overflows (Tree.date?_tamed formats)

theorem jobOutline_overflows (field : JobField) (depth : Nat) :
    Overflows (jobSchema.read field depth) depth (jobOutline.view field) := by
  cases field with
  | className => exact string_overflows _ depth
  | args => exact list_overflows value_views value_overflows depth
  | vars => exact (dict_overflows _ depth).optional

theorem job_overflows (depth : Nat) : Overflows (job depth) depth job? :=
  Schema.Outline.Builds.overflows jobOutline_overflows jobSchema_wellNamed jobOutline_builds _ depth

theorem commandOutline_overflows (field : CommandField) (depth : Nat) :
    Overflows (commandSchema.read field depth) depth (commandOutline.view field) := by
  cases field with
  | className => exact string_overflows _ depth
  | args => exact list_overflows value_views value_overflows depth

theorem failureOutline_overflows (formats : List DateFormat) (field : FailureField) (depth : Nat) :
    Overflows ((failureSchema formats).read field depth) depth ((failureOutline formats).view field) := by
  cases field with
  | worker => exact string_overflows _ depth
  | payload => exact job_overflows depth
  | queue | exception | error => exact (string_overflows _ depth).optional
  | backtrace => exact (list_overflows (string_views _) (string_overflows _) depth).optional
  | failedAt => exact date_overflows formats depth
  | retriedAt => exact (date_overflows formats depth).optional

theorem statusOutline_overflows (formats : List DateFormat) (field : StatusField) (depth : Nat) :
    Overflows ((statusSchema formats).read field depth) depth ((statusOutline formats).view field) := by
  cases field with
  | runAt => exact date_overflows formats depth
  | queue => exact string_overflows _ depth
  | payload => exact job_overflows depth
  | paused => exact (bool_overflows _ depth).optional

end Record

/-! ## Decoders -/

namespace Codec

/-- A decoder refuses nothing but a number out of range, where its reader refuses nothing else. -/
theorem decodeWith_overflows {α : Type} {record : RecordKind} {reader : Nat → Reader α} {view : Tree → Option α}
    (views : ∀ depth, Views (reader depth) depth view) (overflows : ∀ depth, Overflows (reader depth) depth view)
    {text : String} {members : List (String × Tree)} (spelled : SpellsObject text.toList members)
    (tame : (view (.object (Tree.tamedMembers members))).isSome = true) {error : CodecError}
    (refused : decodeWith record reader text = .error error) :
    ∃ left, error = .decode record ⟨.numberOutOfRange, left⟩ text.toList := by
  obtain ⟨before, inner, behind, blank, spelled, space, whole⟩ := spelled
  have ends : EndsNumeral behind := by
    have alone := @endsNumeral_blank behind [] space rfl
    rwa [List.append_nil] at alone
  rw [decodeWith, readAll] at refused
  cases read : (reader depthLimit).run text.toList with
  | error fault =>
    simp only [read] at refused
    obtain rfl := Except.error.inj refused
    rw [whole] at read
    have only := (overflows depthLimit).only spelled tame blank ends read
    obtain ⟨cause, left⟩ := fault
    obtain rfl : cause = _ := only
    exact ⟨left, rfl⟩
  | ok pair =>
    obtain ⟨a, rest⟩ := pair
    simp only [read] at refused
    rw [whole] at read
    obtain rfl := ((views depthLimit).rest_eq spelled blank ends read).2
    simp only [requireEnd, skipSpace_eq_nil space] at refused
    contradiction

/-- Integers in the job of a record are kept, and only a number that is out of range has it refused. -/
structure KeepsIntegers {α : Type} (kind : RecordKind) (decode : String → Except CodecError α)
    (encode : α → String) (payload : α → Job) (route : List Turn) (rules : List Rule) : Prop where
  /-- An integer of 64 bits is decoded as itself and encoded with the same digits. -/
  kept : ∀ {text members record}, SpellsObject (String.toList text) members → decode text = .ok record →
    ∀ {way}, Job.Inside way → ∀ {n}, IsInt64 n →
      Tree.at? (route ++ way) (.object members) = some (.literal n) →
        (payload record).at? way = some (.int (Int64.ofInt n)) ∧
          ∃ depth tree, Spells depth (encode record).toList tree ∧
            tree.at? (route ++ way) = some (.literal n)
  /-- Any other integer is decoded as a double. -/
  float : ∀ {text members record}, SpellsObject (String.toList text) members → decode text = .ok record →
    ∀ {way}, Job.Inside way → ∀ {n}, ¬ IsInt64 n →
      Tree.at? (route ++ way) (.object members) = some (.literal n) →
        ∃ x, (payload record).at? way = some (.float x)
  /-- Where all numbers are in range the record is decoded, if it keeps to the rules. -/
  decoded : ∀ {text members}, SpellsObject (String.toList text) members →
    Admits rules (Tree.tamedMembers members) → Tree.FitsMembers members → ∃ record, decode text = .ok record
  /-- If it keeps to the rules but for such numbers, it is refused because of one of them. -/
  refused : ∀ {text members}, SpellsObject (String.toList text) members →
    Admits rules (Tree.tamedMembers members) → ∀ {error}, decode text = .error error →
      ∃ left, error = .decode kind ⟨.numberOutOfRange, left⟩ (String.toList text)

theorem Keeps.integers {α : Type} {kind : RecordKind} {encode : α → String} {payload : α → Job}
    {route : List Turn} {schema : Schema} {rules : List Rule} {outline : schema.Outline rules}
    {build : List schema.Entry → Except Cause α} {recordOf? : (String → Option Tree) → Option α}
    {expected : String} (keeps : Keeps (decodeWith kind (schema.record expected build)) encode payload route)
    (wellNamed : schema.WellNamed) (builds : outline.Builds build recordOf?)
    (overflows : ∀ field depth, Overflows (schema.read field depth) depth (outline.view field)) :
    KeepsIntegers kind (decodeWith kind (schema.record expected build)) encode payload route rules where
  kept spelled ok way inside n small there := by
    obtain ⟨value, decoded, contained, depth, tree, spells, written⟩ := keeps.kept spelled ok inside there nofun
    rw [value?_literal small] at decoded
    obtain rfl := Option.some.inj decoded
    rw [Tree.ofValue, toInt_of_isInt64 small] at written
    exact ⟨contained, depth, tree, spells, written⟩
  float spelled ok way inside n large there := by
    obtain ⟨value, decoded, contained, -⟩ := keeps.kept spelled ok inside there nofun
    obtain ⟨x, rfl⟩ := float_of_value?_literal large decoded
    exact ⟨x, contained⟩
  decoded spelled admits fits := by
    rw [Tree.tamedMembers_of_fits _ fits] at admits
    exact ((strict_of_builds wellNamed builds kind expected).decodes spelled).mpr admits
  refused spelled admits error refused := by
    refine decodeWith_overflows (builds.views wellNamed expected)
      (Schema.Outline.Builds.overflows overflows wellNamed builds expected) spelled ?_ refused
    rw [Tree.record?, if_pos admits]
    exact builds.isSome_of_admits wellNamed admits

/-- An integer in its shortest decimal form, at any depth and with anything behind it, is read as itself if it
has 64 bits, and written with the same digits. Otherwise it is read as a double or refused as out of range.
The same holds wherever it stands in the job of a record; and integers of 64 bits are in range, so that it is
never them for which a record is refused. -/
theorem decodes_integers (codec : Codec) :
    (∀ n depth text, Spells depth text (.literal n) ↔ text = Text.integer n) ∧
    (∀ n depth {space rest}, Blank space → EndsNumeral rest →
      (IsInt64 n → (value depth).run (space ++ (Text.integer n ++ rest)) = .ok (.int (Int64.ofInt n), rest) ∧
        writeValue (.int (Int64.ofInt n)) = Text.integer n) ∧
      (¬ IsInt64 n → (∃ x, (value depth).run (space ++ (Text.integer n ++ rest)) = .ok (.float x, rest)) ∨
        ∃ left, (value depth).run (space ++ (Text.integer n ++ rest)) = .error ⟨.numberOutOfRange, left⟩)) ∧
    (∀ n, IsInt64 n → (Tree.literal n).Fits) ∧
    KeepsIntegers .job decodeJob encodeJob id [] Record.jobRules ∧
    KeepsIntegers .command decodeDescriptor encodeDescriptor id [] Record.commandRules ∧
    KeepsIntegers .failure codec.decodeFailure encodeFailure JobFailure.payload [.member "payload"]
      (Record.failureRules codec.formats) ∧
    KeepsIntegers .status codec.decodeStatus encodeStatus WorkerStatus.payload [.member "payload"]
      (Record.statusRules codec.formats) := by
  obtain ⟨job, descriptor, failure, status⟩ := codec.keeps
  refine ⟨fun n _ _ => spells_literal_iff n, ?_, fun n => Tree.fits_literal, ?_, ?_, ?_, ?_⟩
  · intro n depth space rest blank ends
    refine ⟨fun small => ⟨read_integer small depth blank ends, ?_⟩, fun large => ?_⟩
    · rw [writeValue, toInt_of_isInt64 small]
    · exact read_integer_of_large large depth blank ends
  · exact job.integers Record.jobSchema_wellNamed Record.jobOutline_builds Record.jobOutline_overflows
  · exact descriptor.integers Record.commandSchema_wellNamed Record.commandOutline_builds
      Record.commandOutline_overflows
  · exact failure.integers (Record.failureSchema_wellNamed _) (Record.failureOutline_builds _)
      (Record.failureOutline_overflows _)
  · exact status.integers (Record.statusSchema_wellNamed _) (Record.statusOutline_builds _)
      (Record.statusOutline_overflows _)

/-- A job with the least and the greatest integer of 64 bits. -/
def extreme : Job := { className := "A", args := [.int Int64.minValue, .int Int64.maxValue] }

/-- Its text is decoded, and both are what they were. -/
theorem decodes_integers_extreme : ∃ record, decodeJob (encodeJob extreme) = .ok record ∧
    record.at? [.member "args", .item 0] = some (.int (Int64.ofInt (-0x8000000000000000))) ∧
      record.at? [.member "args", .item 1] = some (.int (Int64.ofInt 0x7fffffffffffffff)) := by
  have spelled : SpellsObject (encodeJob extreme).toList [("class", .string "A"),
      ("args", .array [.literal (-0x8000000000000000), .literal 0x7fffffffffffffff])] := by
    rw [encodeJob, String.toList_ofList, ← Record.writeValue_jobDocument]
    exact spellsObject_writeValue (by decide)
  obtain ⟨-, -, -, job, -⟩ := decodes_integers {}
  have fits : Tree.FitsMembers [("class", .string "A"),
      ("args", .array [.literal (-0x8000000000000000), .literal 0x7fffffffffffffff])] :=
    ⟨trivial, ⟨Tree.fits_literal (by decide), Tree.fits_literal (by decide), trivial⟩, trivial⟩
  obtain ⟨record, ok⟩ := job.decoded spelled (by decide +kernel) fits
  obtain ⟨least, -⟩ := job.kept spelled ok (.args [.item 0]) (n := -0x8000000000000000) (by decide) rfl
  obtain ⟨greatest, -⟩ := job.kept spelled ok (.args [.item 1]) (n := 0x7fffffffffffffff) (by decide) rfl
  exact ⟨record, ok, least, greatest⟩

end Codec

end JobQueue
