import JobQueue.Codec
import JobQueue.Proofs.Json.Strict
import JobQueue.Proofs.Record

/-! # Records are read strictly

Jobs, command descriptors, failures and statuses have rules: the names of their fields, the fields they need
and what each field may hold. Their decoders read just the objects that keep to these rules, whatever the
order of the members, and a field that may be missing may be null instead.
-/

namespace JobQueue

namespace Json

/-- A date in any of some formats. -/
def Tree.date? (formats : List DateFormat) (tree : Tree) : Option Instant :=
  tree.string?.bind (DateFormat.readFirst formats)

/-- The object of a record that keeps to its rules. -/
def Tree.isRecord (rules : List Rule) : Tree → Bool
  | object members => decide (Admits rules members)
  | _ => false

namespace Rule

variable {α : Type}

/-- A field that must be there. -/
def needed (name : String) (view : Tree → Option α) : Rule where
  name
  required := true
  accepts tree := (view tree).isSome

/-- A field that may be missing. -/
def optional (name : String) (view : Tree → Option α) : Rule where
  name
  required := false
  accepts tree := (view tree).isSome

end Rule

end Json

namespace Record

open Json

/-! ## What records are made of -/

section Rules

variable (formats : List DateFormat)

def JobField.rule : JobField → Rule
  | .className => .needed "class" Tree.string?
  | .args => .needed "args" (Tree.list? Tree.value?)
  | .vars => .optional "vars" Tree.dict?

def jobRules : List Rule := [JobField.className, .args, .vars].map JobField.rule

def jobOf? (told : String → Option Tree) : Option Job := do
  let className ← (told "class").bind Tree.string?
  let args ← (told "args").bind (Tree.list? Tree.value?)
  return { className, args, vars := (told "vars").bind Tree.dict? }

def CommandField.rule : CommandField → Rule
  | .className => .needed "class" Tree.string?
  | .args => .needed "args" (Tree.list? Tree.value?)

def commandRules : List Rule := [CommandField.className, .args].map CommandField.rule

def descriptorOf? (told : String → Option Tree) : Option Job := do
  let className ← (told "class").bind Tree.string?
  let args ← (told "args").bind (Tree.list? Tree.value?)
  return { className, args }

/-- The job of an object that keeps to the rules of jobs. -/
def job? : Tree → Option Job := Tree.record? jobRules jobOf?

/-- A field that holds a job. -/
def payloadRule : Rule where
  name := "payload"
  required := true
  accepts := Tree.isRecord jobRules

def FailureField.rule : FailureField → Rule
  | .worker => .needed "worker" Tree.string?
  | .queue => .optional "queue" Tree.string?
  | .payload => payloadRule
  | .exception => .optional "exception" Tree.string?
  | .error => .optional "error" Tree.string?
  | .backtrace => .optional "backtrace" (Tree.list? Tree.string?)
  | .failedAt => .needed "failed_at" (Tree.date? formats)
  | .retriedAt => .optional "retried_at" (Tree.date? formats)

def failureRules : List Rule :=
  [FailureField.worker, .queue, .payload, .exception, .error, .backtrace, .failedAt, .retriedAt].map
    (FailureField.rule formats)

def failureOf? (told : String → Option Tree) : Option JobFailure := do
  let worker ← (told "worker").bind Tree.string?
  let payload ← (told "payload").bind job?
  let failedAt ← (told "failed_at").bind (Tree.date? formats)
  return {
    worker, payload, failedAt
    queue := (told "queue").bind Tree.string?
    exception := ((told "exception").bind Tree.string?).getD ""
    error := ((told "error").bind Tree.string?).getD ""
    backtrace := ((told "backtrace").bind (Tree.list? Tree.string?)).getD []
    retriedAt := (told "retried_at").bind (Tree.date? formats) }

def StatusField.rule : StatusField → Rule
  | .runAt => .needed "run_at" (Tree.date? formats)
  | .queue => .needed "queue" Tree.string?
  | .payload => payloadRule
  | .paused => .optional "paused" Tree.bool?

def statusRules : List Rule :=
  [StatusField.runAt, .queue, .payload, .paused].map (StatusField.rule formats)

def statusOf? (told : String → Option Tree) : Option WorkerStatus := do
  let runAt ← (told "run_at").bind (Tree.date? formats)
  let queue ← (told "queue").bind Tree.string?
  let payload ← (told "payload").bind job?
  return { runAt, queue, payload, paused := ((told "paused").bind Tree.bool?).getD false }

end Rules

/-! ## What is told by null -/

section Null

variable {α : Type} {members : List (String × Tree)} (view : Tree → Option α)

/-- Where null is nothing to a view, the members may be asked without their nulls. -/
theorem get?_bind (name : String) (nothing : view .null = none) :
    (Dict.get? members name).bind view = (given members name).bind view := by
  rw [given]
  cases Dict.get? members name with
  | none => rfl
  | some tree =>
    cases tree with
    | null => exact nothing
    | _ => rfl

/-- A field that may be null holds what its view sees in what is not null. -/
theorem get?_bind_optional (name : String) :
    ((Dict.get? members name).bind (Tree.optional? view)).join = (given members name).bind view := by
  have joined (seen : Option α) : (seen.map some).join = seen := by cases seen <;> rfl
  rw [given]
  cases Dict.get? members name with
  | none => rfl
  | some tree =>
    cases tree with
    | null => rfl
    | _ => exact joined _

theorem optional?_isSome (tree : Tree) :
    (Tree.optional? view tree).isSome = ((view tree).isSome || tree.isNull) := by
  cases tree with
  | null => exact (Bool.or_true _).symm
  | _ => exact Option.isSome_map.trans (Bool.or_false _).symm

end Null

theorem toOption_require (schema : Schema) (field : schema.Field) (entries : List schema.Entry) :
    (schema.require field entries).toOption = schema.content? field entries := by
  rw [Schema.require]
  cases schema.content? field entries <;> rfl

theorem toOption_bind {ε α β : Type} (first : Except ε α) (next : α → Except ε β) :
    (first >>= next).toOption = first.toOption.bind fun a => (next a).toOption := by
  cases first <;> rfl

/-- A field that is needed is told by the member of its name, and what is made of it by what is behind it. -/
theorem toOption_require_bind {α : Type} {schema : Schema} {rules : List Rule}
    {outline : schema.Outline rules} {entries : List schema.Entry} {members : List (String × Tree)}
    (contents : ∀ field, schema.content? field entries =
      (Dict.get? members (schema.name field)).bind (outline.view field))
    (field : schema.Field) (nothing : outline.view field .null = none)
    {next : schema.Content field → Except Cause α} {others : schema.Content field → Option α}
    (same : ∀ content, (next content).toOption = others content) :
    (schema.require field entries >>= next).toOption =
      ((given members (schema.name field)).bind (outline.view field)).bind others := by
  rw [toOption_bind, toOption_require, contents, get?_bind _ _ nothing]
  exact congrArg (Option.bind _) (funext same)

/-- A date is seen in a string. -/
theorem date_views (formats : List DateFormat) (depth : Nat) :
    Views (date formats) depth (Tree.date? formats) := by
  constructor
  intro text tree spelled space blank rest ends
  have read := (string_views "a date string" depth).sees spelled blank ends
  simp only [date, Reader.judge, Outcome.toOption_andThen, read, Tree.date?]
  cases tree.string? with
  | none => rfl
  | some text =>
    simp only [Option.map_some, Option.bind_some]
    cases DateFormat.readFirst formats text <;> rfl

/-- What is made of several things can be made if each of them is there. -/
theorem isSome_bind_iff {α β : Type} {first : Option α} {next : α → Option β} {others : Prop}
    (behind : ∀ a, (next a).isSome = true ↔ others) :
    (first.bind next).isSome = true ↔ first.isSome = true ∧ others := by
  cases first with
  | none => exact ⟨nofun, fun impossible => absurd impossible.1 Bool.false_ne_true⟩
  | some a => exact ⟨fun more => ⟨rfl, (behind a).mp more⟩, fun both => (behind a).mpr both.2⟩

/-! ## Jobs -/

def jobOutline : jobSchema.Outline jobRules where
  view
    | .className => Tree.string?
    | .args => Tree.list? Tree.value?
    | .vars => Tree.optional? Tree.dict?
  rule := JobField.rule
  views
    | .className => string_views _
    | .args => list_views value_views
    | .vars => fun depth => (dict_views _ depth).optional
  listed := rfl
  named field := by cases field <;> rfl
  allowed
    | .className, _ => (Bool.or_false _).symm
    | .args, _ => (Bool.or_false _).symm
    | .vars, tree => optional?_isSome Tree.dict? tree
  nothing field := by cases field <;> rfl

theorem jobOutline_builds : jobOutline.Builds buildJob jobOf? where
  built {entries members} contents := by
    have vars : (jobSchema.content? .vars entries).join = (given members "vars").bind Tree.dict? :=
      (congrArg Option.join (contents .vars)).trans (get?_bind_optional _ "vars")
    refine toOption_require_bind contents JobField.className rfl fun className => ?_
    refine toOption_require_bind contents JobField.args rfl fun args => ?_
    rw [vars]
    rfl
  needs told := by
    have made : (jobOf? told).isSome = true ↔ ((told "class").bind Tree.string?).isSome = true ∧
        ((told "args").bind (Tree.list? Tree.value?)).isSome = true ∧ True :=
      isSome_bind_iff fun _ => isSome_bind_iff fun _ => iff_of_true rfl trivial
    rw [made]
    constructor
    · rintro ⟨className, args, -⟩ field required
      cases field with
      | className => exact className
      | args => exact args
      | vars => contradiction
    · intro there
      exact ⟨there .className rfl, there .args rfl, trivial⟩

theorem job_views (depth : Nat) : Views (job depth) depth job? :=
  jobOutline_builds.views jobSchema_wellNamed _ depth

/-- An object is a job if it keeps to the rules of jobs. -/
theorem job?_isSome (tree : Tree) : (job? tree).isSome = payloadRule.allows tree := by
  rw [Rule.allows, payloadRule, Bool.not_true, Bool.false_and, Bool.or_false, Bool.eq_iff_iff]
  cases tree with
  | object members =>
    simp only [job?, Tree.record?, Tree.isRecord, decide_eq_true_iff]
    split
    · next admits => exact iff_of_true (jobOutline_builds.isSome_of_admits jobSchema_wellNamed admits) admits
    · next other => exact iff_of_false Bool.false_ne_true other
  | _ => exact Iff.rfl

/-! ## Command descriptors -/

theorem commandSchema_wellNamed : commandSchema.WellNamed where
  named field := by cases field <;> rfl
  nodup := by decide

def commandOutline : commandSchema.Outline commandRules where
  view
    | .className => Tree.string?
    | .args => Tree.list? Tree.value?
  rule := CommandField.rule
  views
    | .className => string_views _
    | .args => list_views value_views
  listed := rfl
  named field := by cases field <;> rfl
  allowed
    | .className, _ => (Bool.or_false _).symm
    | .args, _ => (Bool.or_false _).symm
  nothing field := by cases field <;> rfl

theorem commandOutline_builds : commandOutline.Builds buildDescriptor descriptorOf? where
  built contents :=
    toOption_require_bind contents CommandField.className rfl fun _ =>
      toOption_require_bind contents CommandField.args rfl fun _ => rfl
  needs told := by
    have made : (descriptorOf? told).isSome = true ↔ ((told "class").bind Tree.string?).isSome = true ∧
        ((told "args").bind (Tree.list? Tree.value?)).isSome = true ∧ True :=
      isSome_bind_iff fun _ => isSome_bind_iff fun _ => iff_of_true rfl trivial
    rw [made]
    constructor
    · rintro ⟨className, args, -⟩ field required
      cases field with
      | className => exact className
      | args => exact args
    · intro there
      exact ⟨there .className rfl, there .args rfl, trivial⟩

/-! ## Failures -/

def failureOutline (formats : List DateFormat) : (failureSchema formats).Outline (failureRules formats) where
  view
    | .worker => Tree.string?
    | .queue => Tree.optional? Tree.string?
    | .payload => job?
    | .exception => Tree.optional? Tree.string?
    | .error => Tree.optional? Tree.string?
    | .backtrace => Tree.optional? (Tree.list? Tree.string?)
    | .failedAt => Tree.date? formats
    | .retriedAt => Tree.optional? (Tree.date? formats)
  rule := FailureField.rule formats
  views
    | .worker => string_views _
    | .queue => fun depth => (string_views _ depth).optional
    | .payload => job_views
    | .exception => fun depth => (string_views _ depth).optional
    | .error => fun depth => (string_views _ depth).optional
    | .backtrace => fun depth => (list_views (string_views _) depth).optional
    | .failedAt => date_views formats
    | .retriedAt => fun depth => (date_views formats depth).optional
  listed := rfl
  named field := by cases field <;> rfl
  allowed
    | .worker, _ => (Bool.or_false _).symm
    | .queue, tree => optional?_isSome Tree.string? tree
    | .payload, tree => job?_isSome tree
    | .exception, tree => optional?_isSome Tree.string? tree
    | .error, tree => optional?_isSome Tree.string? tree
    | .backtrace, tree => optional?_isSome (Tree.list? Tree.string?) tree
    | .failedAt, _ => (Bool.or_false _).symm
    | .retriedAt, tree => optional?_isSome (Tree.date? formats) tree
  nothing field := by cases field <;> rfl

theorem failureOutline_builds (formats : List DateFormat) :
    (failureOutline formats).Builds (buildFailure formats) (failureOf? formats) where
  built {entries members} contents := by
    have queue : ((failureSchema formats).content? .queue entries).join =
        (given members "queue").bind Tree.string? :=
      (congrArg Option.join (contents .queue)).trans (get?_bind_optional _ "queue")
    have exception : ((failureSchema formats).content? .exception entries).join =
        (given members "exception").bind Tree.string? :=
      (congrArg Option.join (contents .exception)).trans (get?_bind_optional _ "exception")
    have error : ((failureSchema formats).content? .error entries).join =
        (given members "error").bind Tree.string? :=
      (congrArg Option.join (contents .error)).trans (get?_bind_optional _ "error")
    have backtrace : ((failureSchema formats).content? .backtrace entries).join =
        (given members "backtrace").bind (Tree.list? Tree.string?) :=
      (congrArg Option.join (contents .backtrace)).trans (get?_bind_optional _ "backtrace")
    have retriedAt : ((failureSchema formats).content? .retriedAt entries).join =
        (given members "retried_at").bind (Tree.date? formats) :=
      (congrArg Option.join (contents .retriedAt)).trans (get?_bind_optional _ "retried_at")
    refine toOption_require_bind contents FailureField.worker rfl fun worker => ?_
    refine toOption_require_bind contents FailureField.payload rfl fun payload => ?_
    refine toOption_require_bind contents FailureField.failedAt rfl fun failedAt => ?_
    rw [queue, exception, error, backtrace, retriedAt]
    rfl
  needs told := by
    have made : (failureOf? formats told).isSome = true ↔ ((told "worker").bind Tree.string?).isSome = true ∧
        ((told "payload").bind job?).isSome = true ∧
          ((told "failed_at").bind (Tree.date? formats)).isSome = true ∧ True :=
      isSome_bind_iff fun _ => isSome_bind_iff fun _ => isSome_bind_iff fun _ => iff_of_true rfl trivial
    rw [made]
    constructor
    · rintro ⟨worker, payload, failedAt, -⟩ field required
      cases field with
      | worker => exact worker
      | payload => exact payload
      | failedAt => exact failedAt
      | _ => contradiction
    · intro there
      exact ⟨there .worker rfl, there .payload rfl, there .failedAt rfl, trivial⟩

/-! ## Statuses -/

def statusOutline (formats : List DateFormat) : (statusSchema formats).Outline (statusRules formats) where
  view
    | .runAt => Tree.date? formats
    | .queue => Tree.string?
    | .payload => job?
    | .paused => Tree.optional? Tree.bool?
  rule := StatusField.rule formats
  views
    | .runAt => date_views formats
    | .queue => string_views _
    | .payload => job_views
    | .paused => fun depth => (bool_views _ depth).optional
  listed := rfl
  named field := by cases field <;> rfl
  allowed
    | .runAt, _ => (Bool.or_false _).symm
    | .queue, _ => (Bool.or_false _).symm
    | .payload, tree => job?_isSome tree
    | .paused, tree => optional?_isSome Tree.bool? tree
  nothing field := by cases field <;> rfl

theorem statusOutline_builds (formats : List DateFormat) :
    (statusOutline formats).Builds (buildStatus formats) (statusOf? formats) where
  built {entries members} contents := by
    have paused : ((statusSchema formats).content? .paused entries).join =
        (given members "paused").bind Tree.bool? :=
      (congrArg Option.join (contents .paused)).trans (get?_bind_optional _ "paused")
    refine toOption_require_bind contents StatusField.runAt rfl fun runAt => ?_
    refine toOption_require_bind contents StatusField.queue rfl fun queue => ?_
    refine toOption_require_bind contents StatusField.payload rfl fun payload => ?_
    rw [paused]
    rfl
  needs told := by
    have made : (statusOf? formats told).isSome = true ↔
        ((told "run_at").bind (Tree.date? formats)).isSome = true ∧
          ((told "queue").bind Tree.string?).isSome = true ∧
          ((told "payload").bind job?).isSome = true ∧ True :=
      isSome_bind_iff fun _ => isSome_bind_iff fun _ => isSome_bind_iff fun _ => iff_of_true rfl trivial
    rw [made]
    constructor
    · rintro ⟨runAt, queue, payload, -⟩ field required
      cases field with
      | runAt => exact runAt
      | queue => exact queue
      | payload => exact payload
      | paused => contradiction
    · intro there
      exact ⟨there .runAt rfl, there .queue rfl, there .payload rfl, trivial⟩

end Record

/-! ## Decoders -/

namespace Codec

open Json

/-- What a decoder makes of an object is what its reader sees in it. -/
theorem decodeWith_toOption {α : Type} {record : RecordKind} {reader : Nat → Reader α}
    {view : Tree → Option α}
    (views : ∀ depth, Views (reader depth) depth view) {text : String} {members : List (String × Tree)}
    (spelled : SpellsObject text.toList members) :
    (decodeWith record reader text).toOption = view (.object members) := by
  obtain ⟨before, inner, behind, blank, spelled, space, whole⟩ := spelled
  have ends : EndsNumeral behind := by
    have alone := @endsNumeral_blank behind [] space rfl
    rwa [List.append_nil] at alone
  have read := (views depthLimit).sees spelled blank ends
  rw [decodeWith, whole, readAll]
  cases seen : view (.object members) with
  | none =>
    rw [seen] at read
    cases found : (reader depthLimit).run (before ++ (inner ++ behind)) with
    | error fault => rfl
    | ok pair => rw [found] at read; contradiction
  | some record =>
    rw [seen] at read
    cases found : (reader depthLimit).run (before ++ (inner ++ behind)) with
    | error fault => rw [found] at read; contradiction
    | ok pair =>
      rw [found] at read
      cases read
      simp only [requireEnd, skipSpace_eq_nil space]
      rfl

theorem strict_of_builds {α : Type} {schema : Schema} {rules : List Rule} {outline : schema.Outline rules}
    {build : List schema.Entry → Except Cause α} {recordOf? : (String → Option Tree) → Option α}
    (wellNamed : schema.WellNamed) (builds : outline.Builds build recordOf?) (record : RecordKind)
    (expected : String) :
    Strict (decodeWith record (schema.record expected build)) rules recordOf? :=
  strict_of_record? (outline.distinct wellNamed) (builds.isSome_of_admits wellNamed)
    (decodeWith_toOption (builds.views wellNamed expected))

/-- Jobs, command descriptors, failures and statuses are decoded strictly. -/
theorem decodes_strictly (codec : Codec) :
    Strict decodeJob Record.jobRules Record.jobOf? ∧
      Strict decodeDescriptor Record.commandRules Record.descriptorOf? ∧
      Strict codec.decodeFailure (Record.failureRules codec.formats) (Record.failureOf? codec.formats) ∧
      Strict codec.decodeStatus (Record.statusRules codec.formats) (Record.statusOf? codec.formats) :=
  ⟨strict_of_builds Record.jobSchema_wellNamed Record.jobOutline_builds .job _,
    strict_of_builds Record.commandSchema_wellNamed Record.commandOutline_builds .command _,
    strict_of_builds (Record.failureSchema_wellNamed _) (Record.failureOutline_builds _) .failure _,
    strict_of_builds (Record.statusSchema_wellNamed _) (Record.statusOutline_builds _) .status _⟩

/-- A character that may stand for itself in a string. -/
def isPlain (c : Char) : Bool := c ≠ '"' && c ≠ '\\' && 0x20 ≤ c.toNat

theorem spellsChars_plain {cs : List Char} (plain : cs.all isPlain = true) :
    SpellsChars (cs ++ ['"']) cs := by
  induction cs with
  | nil => exact .close
  | cons c cs ih =>
    rw [List.all_cons, Bool.and_eq_true] at plain
    simp only [isPlain, Bool.and_eq_true, decide_eq_true_eq] at plain
    obtain ⟨⟨⟨quote, slash⟩, visible⟩, others⟩ := plain
    exact @SpellsChars.char [c] _ c cs (.plain quote slash (Nat.not_lt.mpr visible)) (ih others)

/-- A job with a field that is null and its members in another order than they are written in. -/
def shuffled : String := "\x7b\"vars\":null,\"args\":[ ],\n\"class\" : \"A\"\x7d"

/-- The members of that job are those of a job, so it is decoded, and what is decoded has no variables. -/
theorem decodes_strictly_shuffled : decodeJob shuffled = .ok { className := "A" } := by
  have none : Blank [] := nofun
  have space : Blank [' '] := by decide
  have line : Blank ['\n'] := by decide
  have vars : SpellsChars ("vars".toList ++ ['"']) "vars".toList := spellsChars_plain (by decide)
  have args : SpellsChars ("args".toList ++ ['"']) "args".toList := spellsChars_plain (by decide)
  have className : SpellsChars ("class".toList ++ ['"']) "class".toList := spellsChars_plain (by decide)
  have value : SpellsChars ("A".toList ++ ['"']) "A".toList := spellsChars_plain (by decide)
  have spelled : SpellsObject shuffled.toList
      [("vars", .null), ("args", .array []), ("class", .string "A")] :=
    ⟨[], _, [], none, .object (.member (.first none) vars none none .null
      (.member (.next none none) args none none (.array (.close space))
        (.member (.next none line) className space space (.string value) (.close none)))), none, by decide⟩
  obtain ⟨decodes, record, -, -⟩ := (decodes_strictly {}).1
  obtain ⟨job, ok⟩ := (decodes spelled).mpr (by decide)
  cases record spelled ok
  exact ok

end Codec

end JobQueue
