import JobQueue.Proofs.Json.Collected
import JobQueue.Proofs.Record.Strict

/-! # What records contain

The arguments and the variables of a job are read where they stand, in the text of a job or inside the record
of a job. Whatever stands in the text at the end of a way into them is decoded at the end of the same way into
the job, and stands there again in what is encoded. So each object in them is collected to a dictionary with
distinct keys, and the text that is encoded names each key once, in the order of the dictionary.
-/

namespace JobQueue

open Json

namespace Job

/-- The ways into the arguments and into the variables of a job. -/
inductive Inside : List Turn → Prop
  | args (way : List Turn) : Inside (.member "args" :: way)
  | vars (way : List Turn) : Inside (.member "vars" :: way)

/-- What a job contains at the end of a way into it. -/
def at? (job : Job) : List Turn → Option Value
  | .member "args" :: way => (Value.array job.args).at? way
  | .member "vars" :: way => job.vars.bind fun vars => (Value.object vars).at? way
  | _ => none

end Job

namespace Record

/-! ## Ways into jobs -/

/-- The document of a job contains what the job contains. -/
theorem at?_jobDocument (job : Job) {way : List Turn} (inside : Job.Inside way) :
    (jobDocument job).at? way = job.at? way := by
  obtain ⟨className, args, vars⟩ := job
  cases inside with
  | args way => rfl
  | vars way => cases vars <;> rfl

theorem jobDocument_members (job : Job) : ∃ dict, jobDocument job = .object dict ∧ (Dict.keys dict).Nodup ∧
    Dict.get? dict "args" = some (.array job.args) ∧ Dict.get? dict "vars" = job.vars.map .object := by
  obtain ⟨className, args, vars⟩ := job
  cases vars with
  | none => exact ⟨_, rfl, (by decide : ["class", "args"].Nodup), rfl, rfl⟩
  | some vars => exact ⟨_, rfl, (by decide : ["class", "args", "vars"].Nodup), rfl, rfl⟩

theorem failureDocument_members (failure : JobFailure) : ∃ dict, failureDocument failure = .object dict ∧
    (Dict.keys dict).Nodup ∧ Dict.get? dict "payload" = some (jobDocument failure.payload) := by
  obtain ⟨worker, queue, payload, exception, error, backtrace, failedAt, retriedAt⟩ := failure
  have all : ["worker", "queue", "payload", "exception", "error", "backtrace", "failed_at",
      "retried_at"].Nodup := by decide
  cases queue <;> cases retriedAt <;>
    exact ⟨_, rfl, all.sublist (List.isSublist_iff_sublist.mp rfl), rfl⟩

section Conveyed

variable {members : List (String × Tree)} {tree : Tree} {job : Job} {way : List Turn} {name : String}

theorem given_of_last? (once : (Dict.keys members).Nodup) (last : Dict.last? members name = some tree)
    (visible : tree ≠ .null) : given members name = some tree := by
  rw [given, ← Dict.last?_of_nodup once, last]
  cases tree with
  | null => contradiction
  | _ => rfl

theorem accepts_of_allows {rule : Rule} (allows : rule.allows tree = true) (visible : tree ≠ .null) :
    rule.accepts tree = true := by
  rw [Rule.allows, Bool.or_eq_true, Bool.and_eq_true] at allows
  refine allows.resolve_right fun null => ?_
  cases tree with
  | null => contradiction
  | _ => exact absurd null.2 Bool.false_ne_true

theorem value?_of_list? {items : List Value} (seen : Tree.list? Tree.value? tree = some items) :
    tree.value? = some (.array items) := by
  cases tree with
  | array trees =>
    have each : trees.mapM Tree.value? = some items := seen
    rw [Tree.value?, Tree.values?_eq_mapM, each]
    rfl
  | _ => contradiction

theorem value?_of_dict? {dict : Dict Value} (seen : tree.dict? = some dict) :
    tree.value? = some (.object dict) := by
  cases tree with
  | object members =>
    obtain ⟨entries, each, rfl⟩ := Option.map_eq_some_iff.mp seen
    rw [Tree.value?, Tree.entries?_eq_mapM, each]
    rfl
  | _ => contradiction

/-- Ways into the arguments that are told lead to the arguments of the job. -/
theorem conveys_args (once : (Dict.keys members).Nodup)
    (told : (given members "args").bind (Tree.list? Tree.value?) = some job.args) :
    Conveys (.object members) (jobDocument job) (.member "args" :: way) := by
  obtain ⟨dict, document, distinct, args, -⟩ := jobDocument_members job
  rw [document]
  refine conveys_member distinct fun tree last visible => ⟨_, args, conveys_value way ?_⟩
  rw [given_of_last? once last visible, Option.bind_some] at told
  exact value?_of_list? told

theorem fields_of_jobOf? {told : String → Option Tree} (made : jobOf? told = some job) :
    (told "args").bind (Tree.list? Tree.value?) = some job.args ∧ job.vars = (told "vars").bind Tree.dict? := by
  simp only [jobOf?, Option.bind_eq_bind, Option.bind_eq_some_iff] at made
  obtain ⟨className, -, args, found, made⟩ := made
  obtain rfl := Option.some.inj made
  exact ⟨Option.bind_eq_some_iff.mpr found, rfl⟩

/-- What stands in the arguments and in the variables of a job is decoded. -/
theorem conveys_job (seen : job? tree = some job) (inside : Job.Inside way) :
    Conveys tree (jobDocument job) way := by
  cases tree with
  | object members =>
    rw [job?, Tree.record?] at seen
    split at seen
    · next admits =>
      obtain ⟨args, vars⟩ := fields_of_jobOf? seen
      cases inside with
      | args way => exact conveys_args admits.once args
      | vars way =>
        obtain ⟨dict, document, distinct, -, held⟩ := jobDocument_members job
        rw [document]
        refine conveys_member distinct fun tree last visible => ?_
        have listed : JobField.vars.rule ∈ jobRules := List.mem_map_of_mem (by decide)
        have allowed := admits.typed _ (Dict.mem_of_last? last) _ listed rfl
        obtain ⟨found, seen⟩ := Option.isSome_iff_exists.mp (accepts_of_allows allowed visible)
        rw [vars, given_of_last? admits.once last visible, Option.bind_some, seen] at held
        exact ⟨_, held, conveys_value way (value?_of_dict? seen)⟩
    · contradiction
  | _ => contradiction

theorem fields_of_descriptorOf? {told : String → Option Tree} (made : descriptorOf? told = some job) :
    (told "args").bind (Tree.list? Tree.value?) = some job.args ∧ job.vars = none := by
  simp only [descriptorOf?, Option.bind_eq_bind, Option.bind_eq_some_iff] at made
  obtain ⟨className, -, args, found, made⟩ := made
  obtain rfl := Option.some.inj made
  exact ⟨Option.bind_eq_some_iff.mpr found, rfl⟩

/-- A descriptor has arguments, and no variables to go into. -/
theorem conveys_descriptor (admits : Admits commandRules members)
    (made : descriptorOf? (given members) = some job) (inside : Job.Inside way) :
    Conveys (.object members) (jobDocument job) way := by
  cases inside with
  | args way => exact conveys_args admits.once (fields_of_descriptorOf? made).1
  | vars way =>
    intro found there _
    obtain ⟨tree, last, -⟩ := Option.bind_eq_some_iff.mp there
    obtain ⟨rule, listed, named⟩ := admits.known _ (Dict.mem_of_last? last)
    obtain ⟨field, -, rfl⟩ := List.mem_map.mp listed
    cases field with
    | className => exact absurd named (by decide : "class" ≠ "vars")
    | args => exact absurd named (by decide : "args" ≠ "vars")

/-- Ways into the payload lead to a job. -/
theorem conveys_payload {dict : Dict Value} (once : (Dict.keys members).Nodup)
    (told : (given members "payload").bind job? = some job) (distinct : (Dict.keys dict).Nodup)
    (holds : Dict.get? dict "payload" = some (jobDocument job)) (inside : Job.Inside way) :
    Conveys (.object members) (.object dict) (.member "payload" :: way) := by
  refine conveys_member distinct fun tree last visible => ⟨_, holds, ?_⟩
  rw [given_of_last? once last visible, Option.bind_some] at told
  exact conveys_job told inside

theorem payload_of_failureOf? {formats : List DateFormat} {told : String → Option Tree} {failure : JobFailure}
    (made : failureOf? formats told = some failure) : (told "payload").bind job? = some failure.payload := by
  simp only [failureOf?, Option.bind_eq_bind, Option.bind_eq_some_iff] at made
  obtain ⟨worker, -, payload, found, failedAt, -, made⟩ := made
  obtain rfl := Option.some.inj made
  exact Option.bind_eq_some_iff.mpr found

theorem payload_of_statusOf? {formats : List DateFormat} {told : String → Option Tree} {status : WorkerStatus}
    (made : statusOf? formats told = some status) : (told "payload").bind job? = some status.payload := by
  simp only [statusOf?, Option.bind_eq_bind, Option.bind_eq_some_iff] at made
  obtain ⟨runAt, -, queue, -, payload, found, made⟩ := made
  obtain rfl := Option.some.inj made
  exact Option.bind_eq_some_iff.mpr found

theorem conveys_failure {formats : List DateFormat} {failure : JobFailure} (once : (Dict.keys members).Nodup)
    (made : failureOf? formats (given members) = some failure) (inside : Job.Inside way) :
    Conveys (.object members) (failureDocument failure) (.member "payload" :: way) := by
  obtain ⟨dict, document, distinct, holds⟩ := failureDocument_members failure
  rw [document]
  exact conveys_payload once (payload_of_failureOf? made) distinct holds inside

theorem conveys_status {formats : List DateFormat} {status : WorkerStatus} (once : (Dict.keys members).Nodup)
    (made : statusOf? formats (given members) = some status) (inside : Job.Inside way) :
    Conveys (.object members) (statusDocument status) (.member "payload" :: way) :=
  conveys_payload once (payload_of_statusOf? made) (by decide : ["run_at", "queue", "payload", "paused"].Nodup)
    rfl inside

/-- The document of a failure contains its job as the payload. -/
theorem at?_failureDocument (failure : JobFailure) (inside : Job.Inside way) :
    (failureDocument failure).at? (.member "payload" :: way) = failure.payload.at? way := by
  obtain ⟨dict, document, -, holds⟩ := failureDocument_members failure
  rw [document, Value.at?, holds]
  exact at?_jobDocument failure.payload inside

theorem at?_statusDocument (status : WorkerStatus) (inside : Job.Inside way) :
    (statusDocument status).at? (.member "payload" :: way) = status.payload.at? way :=
  at?_jobDocument status.payload inside

end Conveyed

end Record

/-! ## Records that are decoded and encoded again -/

namespace Codec

/-- What stands in the job of a record is decoded where it stands, and stands there in what is encoded. -/
structure Keeps {α : Type} (decode : String → Except CodecError α) (encode : α → String) (payload : α → Job)
    (route : List Turn) : Prop where
  kept : ∀ {text members record}, SpellsObject (String.toList text) members → decode text = .ok record →
    ∀ {way}, Job.Inside way → ∀ {found}, Tree.at? (route ++ way) (.object members) = some found →
      found ≠ .null → ∃ value, found.value? = some value ∧ (payload record).at? way = some value ∧
        ∃ depth tree, Spells depth (encode record).toList tree ∧
          tree.at? (route ++ way) = some (.ofValue value)

section Keeps

variable {α : Type} {decode : String → Except CodecError α} {encode : α → String} {payload : α → Job}
  {rules : List Rule} {recordOf? : (String → Option Tree) → Option α}

/-- A record keeps what stands in its job if a document of the record does. -/
theorem Keeps.of_document {route : List Turn} (strict : Strict decode rules recordOf?) (document : α → Value)
    (encodes : ∀ {told record}, recordOf? told = some record →
      encode record = String.ofList (writeValue (document record)))
    (contains : ∀ record {way}, Job.Inside way → (document record).at? (route ++ way) = (payload record).at? way)
    (conveys : ∀ {members record}, Admits rules members → recordOf? (given members) = some record →
      ∀ {way}, Job.Inside way → Conveys (.object members) (document record) (route ++ way)) :
    Keeps decode encode payload route := by
  constructor
  intro text members record spelled ok way inside found there visible
  have admits := (strict.decodes spelled).mp ⟨record, ok⟩
  have made := strict.record spelled ok
  obtain ⟨value, decoded, seen, written⟩ := conveys admits made inside found there visible
  have spells : Spells (document record).nesting (encode record).toList (.ofValue (document record)) := by
    rw [encodes made, String.toList_ofList]
    exact spells_writeValue (document record) (Nat.le_refl _)
  exact ⟨value, decoded, contains record inside ▸ seen, _, _, spells, written⟩

end Keeps

/-- The text of a descriptor. -/
def encodeDescriptor (descriptor : Job) : String := String.ofList (Record.writeDescriptor descriptor)

/-- What stands in the jobs of records is kept. -/
theorem keeps (codec : Codec) :
    Keeps decodeJob encodeJob id [] ∧ Keeps decodeDescriptor encodeDescriptor id [] ∧
      Keeps codec.decodeFailure encodeFailure JobFailure.payload [.member "payload"] ∧
      Keeps codec.decodeStatus encodeStatus WorkerStatus.payload [.member "payload"] := by
  obtain ⟨job, descriptor, failure, status⟩ := codec.decodes_strictly
  refine ⟨?_, ?_, ?_, ?_⟩
  · refine .of_document job Record.jobDocument ?_ Record.at?_jobDocument ?_
    · exact fun _ => congrArg String.ofList (Record.writeValue_jobDocument _).symm
    · intro members record admits made way
      refine Record.conveys_job ?_
      rw [Record.job?, Tree.record?, if_pos admits, made]
  · refine .of_document descriptor Record.jobDocument ?_ Record.at?_jobDocument
      fun admits made _ => Record.conveys_descriptor admits made
    intro told record made
    obtain ⟨className, args, vars⟩ := record
    obtain rfl : vars = none := (Record.fields_of_descriptorOf? made).2
    exact congrArg String.ofList (Record.writeValue_jobDocument { className, args }).symm
  · refine .of_document failure Record.failureDocument ?_ (fun record _ => Record.at?_failureDocument record) ?_
    · exact fun _ => congrArg String.ofList (Record.writeValue_failureDocument _).symm
    · exact fun admits made _ => Record.conveys_failure admits.once made
  · refine .of_document status Record.statusDocument ?_ (fun record _ => Record.at?_statusDocument record) ?_
    · exact fun _ => congrArg String.ofList (Record.writeValue_statusDocument _).symm
    · exact fun admits made _ => Record.conveys_status admits.once made

/-! ## Objects in records -/

/-- The objects in the job of a record are collected, and each is encoded with its names in the order of its
dictionary. -/
structure CollectsObjects {α : Type} (decode : String → Except CodecError α) (encode : α → String)
    (payload : α → Job) (route : List Turn) : Prop where
  collected : ∀ {text members record}, SpellsObject (String.toList text) members → decode text = .ok record →
    ∀ {way}, Job.Inside way → ∀ {inner}, Tree.at? (route ++ way) (.object members) = some (.object inner) →
      ∃ dict, (payload record).at? way = some (.object dict) ∧ Collected inner dict ∧
        ∃ depth tree written, Spells depth (encode record).toList tree ∧
          tree.at? (route ++ way) = some (.object written) ∧ Dict.keys written = Dict.keys dict

theorem Keeps.collectsObjects {α : Type} {decode : String → Except CodecError α} {encode : α → String}
    {payload : α → Job} {route : List Turn} (keeps : Keeps decode encode payload route) :
    CollectsObjects decode encode payload route := by
  constructor
  intro text members record spelled ok way inside inner there
  obtain ⟨value, decoded, contained, depth, tree, spells, written⟩ := keeps.kept spelled ok inside there nofun
  obtain ⟨dict, rfl, collected⟩ := value?_object decoded
  exact ⟨dict, contained, collected, depth, tree, _, spells, written, Tree.keys_ofMembers dict⟩

/-- The value of a text of an object depends on its members alone. There is one just if each member has one,
whatever names are repeated, and it is a dictionary with distinct keys in the order in which the names first
occur, each bound to the value of its last member, and is written with these keys in this order. So is every
object in the job of a record. -/
theorem decodes_objects (codec : Codec) :
    (∀ depth, Views (value depth) depth Tree.value?) ∧
    (∀ members : List (String × Tree), (Tree.value? (.object members)).isSome = true ↔
      ∀ member ∈ members, (Tree.value? member.2).isSome = true) ∧
    (∀ members value, Tree.value? (.object members) = some value →
      ∃ dict, value = .object dict ∧ Collected members dict ∧
        ∃ depth written, Spells depth (writeValue value) (.object written) ∧
          Dict.keys written = Dict.keys dict) ∧
    CollectsObjects decodeJob encodeJob id [] ∧ CollectsObjects decodeDescriptor encodeDescriptor id [] ∧
    CollectsObjects codec.decodeFailure encodeFailure JobFailure.payload [.member "payload"] ∧
    CollectsObjects codec.decodeStatus encodeStatus WorkerStatus.payload [.member "payload"] := by
  obtain ⟨job, descriptor, failure, status⟩ := codec.keeps
  refine ⟨value_views, value?_object_isSome, ?_, job.collectsObjects, descriptor.collectsObjects,
    failure.collectsObjects, status.collectsObjects⟩
  intro members value decoded
  obtain ⟨dict, rfl, collected⟩ := value?_object decoded
  exact ⟨dict, rfl, collected, _, _, spells_writeValue (.object dict) (Nat.le_refl _), Tree.keys_ofMembers dict⟩

/-- A job whose argument has a name twice. -/
def repeated : Job :=
  { className := "A", args := [.object [("b", .bool true), ("a", .null), ("b", .bool false)]] }

/-- Its text is decoded with that name once, in the first place and with the last value. -/
theorem decodes_objects_repeated : ∃ record dict, decodeJob (encodeJob repeated) = .ok record ∧
    record.at? [.member "args", .item 0] = some (.object dict) ∧
      Collected [("b", .bool true), ("a", .null), ("b", .bool false)] dict := by
  have spelled : SpellsObject (encodeJob repeated).toList [("class", .string "A"),
      ("args", .array [.object [("b", .bool true), ("a", .null), ("b", .bool false)]])] := by
    rw [encodeJob, String.toList_ofList, ← Record.writeValue_jobDocument]
    exact spellsObject_writeValue (by decide)
  obtain ⟨record, ok⟩ := ((decodes_strictly {}).1.decodes spelled).mpr (by decide)
  obtain ⟨-, -, -, ⟨job⟩, -⟩ := decodes_objects {}
  obtain ⟨dict, contained, collected, -⟩ := job spelled ok (.args [.item 0]) rfl
  exact ⟨record, dict, ok, contained, collected⟩

end Codec

end JobQueue
