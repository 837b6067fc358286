import JobQueue.Json.Schema
import JobQueue.Json.Skip

/-! # Records read leniently

Settings are records in which every field has a default. They are read from an object, in which unknown
names are skipped, or from an array, which gives the fields in their order. A field that is missing keeps
its default; a name that occurs twice is refused before its second value is looked at.
-/

namespace JobQueue.Json

/-- A field of settings: its name, and how it is read into them. -/
structure Setting (α : Type) where
  name : String
  read : Reader (α → α)

/-- A field whose content is put into the settings by a function. -/
def Setting.of {α β : Type} (name : String) (read : Reader β) (put : β → α → α) : Setting α :=
  ⟨name, read.map put⟩

namespace Setting

variable {α : Type}

/-- Reads the settings that are left, in their order, behind an opening bracket. -/
def readInOrder : List (Setting α) → Bool → α → List Char → Outcome α
  | [], _, settings, text => match skipSpace text with
    | [] => .error (faultPast .endInList [])
    | c :: rest =>
      if c = ']' then .ok (settings, rest)
      else if c = ',' then match skipSpace rest with
        | [] => .error (faultPast .trailingCharacters [])
        | d :: others =>
          .error (faultPast (if d = ']' then .trailingComma else .trailingCharacters) (d :: others))
      else .error (faultPast .trailingCharacters (c :: rest))
  | field :: fields, first, settings, text =>
    ((elementStep field.read).run first text).andThen fun next rest => match next with
      | none => .ok (settings, rest)
      | some (put, first) => readInOrder fields first (put settings) rest

theorem readInOrder_length_lt {fields : List (Setting α)} {first : Bool} {settings a : α}
    {text rest : List Char} (read : readInOrder fields first settings text = .ok (a, rest)) :
    rest.length < text.length := by
  induction fields generalizing first settings text with
  | nil =>
    have bound := skipSpace_length_le text
    unfold readInOrder at read
    split at read
    · cases read
    · next c tail found =>
      rw [found, List.length_cons] at bound
      split at read
      · obtain ⟨_, rfl⟩ := Prod.mk.inj (Except.ok.inj read)
        omega
      · split at read
        · split at read
          · cases read
          · cases read
        · cases read
  | cons field fields ih =>
    unfold readInOrder at read
    obtain ⟨next, left, found, tail⟩ := Outcome.andThen_eq_ok.mp read
    have bound := (elementStep field.read).shorter found
    cases next with
    | none =>
      obtain ⟨_, rfl⟩ := Prod.mk.inj (Except.ok.inj tail)
      exact bound
    | some next => exact Nat.lt_trans (ih tail) bound

/-- Reads the next setting by its name, or the closing brace. -/
def namedStep (fields : List (Setting α)) : Step (Bool × List String) (α → α) where
  run state text := (nextName state.1 text).andThen fun name? rest => match name? with
    | none => .ok (none, rest)
    | some name => match fields.find? fun field => field.name = name with
      | none => (behindColon skip rest).andThen fun _ left => .ok (some (id, (false, state.2)), left)
      | some field =>
        if name ∈ state.2 then .error (Schema.faultClosing (.duplicateField name) rest)
        else (behindColon field.read rest).andThen fun put left =>
          .ok (some (put, (false, name :: state.2)), left)
  shorter {state text next rest} read := by
    obtain ⟨name?, left, found, tail⟩ := Outcome.andThen_eq_ok.mp read
    have bound := nextName_length_lt found
    cases name? with
    | none =>
      cases tail
      exact bound
    | some name =>
      simp only at tail
      split at tail
      · obtain ⟨_, behind, taken, equal⟩ := Outcome.andThen_eq_ok.mp tail
        cases equal
        exact Nat.lt_trans (behindColon_length_lt taken) bound
      · split at tail
        · cases tail
        · obtain ⟨put, behind, taken, equal⟩ := Outcome.andThen_eq_ok.mp tail
          cases equal
          exact Nat.lt_trans (behindColon_length_lt taken) bound

/-- Reads settings over their defaults. -/
def settings (expected : String) (fields : List (Setting α)) (defaults : α) : Reader α :=
  .start (fun c rest =>
      if c = '[' then readInOrder fields true defaults rest
      else if c = '{' then (((namedStep fields).reader (true, [])).run rest).andThen fun puts left =>
        .ok (puts.foldl (fun settings put => put settings) defaults, left)
      else .error (mismatch expected c rest))
    .endInValue fun {_ _ _ _} read => by
      split at read
      · exact Nat.le_of_lt (readInOrder_length_lt read)
      · split at read
        · obtain ⟨puts, left, taken, equal⟩ := Outcome.andThen_eq_ok.mp read
          cases equal
          exact Nat.le_of_lt (((namedStep _).reader _).shorter taken)
        · cases read

end Setting

end JobQueue.Json
