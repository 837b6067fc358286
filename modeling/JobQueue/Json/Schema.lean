import JobQueue.Json.Typed

/-! # Records as objects of known fields

A schema lists the fields of a record, what each holds and how that is read. A record is read strictly:
every name must be one of the fields, none may occur twice, and the fields a record needs must be there.
The order of the fields in the text does not matter to the record that is built.
-/

namespace JobQueue.Json

/-- The fields of a record. -/
structure Schema where
  Field : Type
  decideField : DecidableEq Field
  fields : List Field
  name : Field → String
  Content : Field → Type
  read : (field : Field) → Nat → Reader (Content field)

namespace Schema

instance (schema : Schema) : DecidableEq schema.Field := schema.decideField

/-- One field with what it holds. -/
abbrev Entry (schema : Schema) := (field : schema.Field) × schema.Content field

/-- The field of a name. -/
def field? (schema : Schema) (name : String) : Option schema.Field :=
  schema.fields.find? fun field => schema.name field = name

/-- What a field holds among some entries. -/
def content? (schema : Schema) (field : schema.Field) : List schema.Entry → Option (schema.Content field)
  | [] => none
  | entry :: rest =>
    if same : entry.1 = field then some (same ▸ entry.2) else content? schema field rest

/-- What a field holds, if the record cannot do without it. -/
def require (schema : Schema) (field : schema.Field) (entries : List schema.Entry) :
    Except Cause (schema.Content field) :=
  match schema.content? field entries with
  | some content => .ok content
  | none => .error (.missingField (schema.name field))

/-- A fault found among the fields is reported behind the closing brace, if that comes next. -/
def faultClosing (cause : Cause) (rest : List Char) : Fault :=
  match skipSpace rest with
  | '}' :: rest => faultAt cause rest
  | rest => faultAt cause rest

/-- The next field that has not been seen, or the closing brace. -/
def entryStep (schema : Schema) (depth : Nat) : Step (List schema.Field) schema.Entry where
  run seen text := (nextName seen.isEmpty text).andThen fun name? rest =>
    match name? with
    | none => .ok (none, rest)
    | some name => match schema.field? name with
      | none => .error (faultClosing (.unknownField name (schema.fields.map schema.name)) rest)
      | some field => (behindColon (schema.read field depth) rest).andThen fun content left =>
        if field ∈ seen then .error (faultClosing (.duplicateField (schema.name field)) left)
        else .ok (some (⟨field, content⟩, field :: seen), left)
  shorter {seen text next rest} read := by
    obtain ⟨name?, left, found, tail⟩ := Outcome.andThen_eq_ok.mp read
    have bound := nextName_length_lt found
    cases name? with
    | none =>
      cases tail
      exact bound
    | some name =>
      simp only at tail
      split at tail
      · cases tail
      · obtain ⟨content, behind, taken, equal⟩ := Outcome.andThen_eq_ok.mp tail
        split at equal
        · cases equal
        · cases equal
          exact Nat.lt_trans (behindColon_length_lt taken) bound

/-- The fields of an object, each at most once. -/
def entries (schema : Schema) (expected : String) (depth : Nat) : Reader (List schema.Entry) :=
  .start (fun c rest =>
      if c = '{' then match depth with
        | 0 => .error (faultPast .tooDeep (c :: rest))
        | depth + 1 => ((schema.entryStep depth).reader []).run rest
      else .error (mismatch expected c rest))
    .endInValue fun {_ _ _ _} read => by
      split at read
      · split at read
        · cases read
        · exact Nat.le_of_lt (((schema.entryStep _).reader []).shorter read)
      · cases read

/-- A record built from its fields. -/
def record {α : Type} (schema : Schema) (expected : String)
    (build : List schema.Entry → Except Cause α) (depth : Nat) : Reader α :=
  (schema.entries expected depth).judge build

end Schema

end JobQueue.Json
