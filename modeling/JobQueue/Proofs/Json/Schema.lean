import JobQueue.Json.Schema
import JobQueue.Proofs.Json.Written

/-! # Records written and read

A `Piece` is one written field with what it holds, together with the proof that the field's reader settles
its text. A record is settled by its pieces, if they are fields of its schema in the order of the schema.
-/

namespace JobQueue.Json.Schema

/-- A written field and what it is read as. -/
structure Piece (schema : Schema) where
  field : schema.Field
  content : schema.Content field
  text : List Char
  nesting : Nat
  settles : ∀ depth, Settles (schema.read field depth) text (depth < nesting) content

/-- A schema whose fields have names of their own. -/
structure WellNamed (schema : Schema) : Prop where
  named : ∀ field, schema.field? (schema.name field) = some field
  nodup : schema.fields.Nodup

namespace Piece

variable {schema : Schema}

def entry (piece : schema.Piece) : schema.Entry := ⟨piece.field, piece.content⟩

def member (piece : schema.Piece) : String × List Char := (schema.name piece.field, piece.text)

/-- How many arrays and objects the deepest of some pieces nests. -/
def nestingAll : List schema.Piece → Nat
  | [] => 0
  | piece :: rest => max piece.nesting (nestingAll rest)

/-- A field that has not been seen is taken as its reader settles it. -/
theorem takes (piece : schema.Piece) (named : schema.field? (schema.name piece.field) = some piece.field)
    (depth : Nat) {seen : List schema.Field} (fresh : piece.field ∉ seen) :
    Takes (schema.entryStep depth) List.isEmpty seen (writeMember (schema.name piece.field) piece.text)
      (depth < piece.nesting) piece.entry (piece.field :: seen) where
  begun := rfl
  reads shallow rest delimited := by
    rw [writeMember, List.append_assoc, List.cons_append]
    simp only [entryStep, nextName_written, Outcome.andThen, named, behindColon_written,
      (piece.settles depth).reads shallow rest delimited]
    rw [if_neg fresh]
    rfl
  refuses tooDeep rest delimited := by
    obtain ⟨left, refused⟩ := (piece.settles depth).refuses tooDeep rest delimited
    refine ⟨left, ?_⟩
    rw [writeMember, List.append_assoc, List.cons_append]
    simp only [entryStep, nextName_written, Outcome.andThen, named, behindColon_written, refused]

end Piece

variable {schema : Schema}

theorem entryStep_closes (depth : Nat) (seen : List schema.Field) (rest : List Char) :
    (schema.entryStep depth).run seen ('}' :: rest) = .ok (none, rest) := by
  cases seen <;> rfl

/-- Fields that are new and different from each other are taken one after the other. -/
theorem WellNamed.steps (wellNamed : schema.WellNamed) (depth : Nat) (pieces : List schema.Piece)
    (seen : List schema.Field) (nodup : (pieces.map Piece.field).Nodup)
    (fresh : ∀ piece ∈ pieces, piece.field ∉ seen) :
    Steps (schema.entryStep depth) List.isEmpty '}' seen
      ((pieces.map Piece.member).map fun (name, written) => writeMember name written)
      (depth < Piece.nestingAll pieces) (pieces.map Piece.entry) := by
  induction pieces generalizing seen with
  | nil => exact .done (entryStep_closes depth seen) (Nat.not_lt_zero depth)
  | cons piece rest ih =>
    obtain ⟨new, nodup⟩ := List.nodup_cons.mp nodup
    have takes := piece.takes (wellNamed.named piece.field) depth (fresh piece (List.mem_cons_self ..))
    have unseen : ∀ other ∈ rest, other.field ∉ piece.field :: seen := by
      intro other among
      rw [List.mem_cons, not_or]
      constructor
      · intro same
        exact new (same ▸ List.mem_map_of_mem among)
      · exact fresh other (List.mem_cons_of_mem _ among)
    exact .next takes (ih (piece.field :: seen) nodup unseen) (by rw [Piece.nestingAll]; omega)

/-- A record is settled by its pieces, one level further down. -/
theorem WellNamed.record_settles {α : Type} (wellNamed : schema.WellNamed) {expected : String}
    {build : List schema.Entry → Except Cause α} {a : α} (pieces : List schema.Piece)
    (ordered : (pieces.map Piece.field).Sublist schema.fields)
    (built : build (pieces.map Piece.entry) = .ok a) (depth : Nat) :
    Settles (schema.record expected build depth) (writeObject (pieces.map Piece.member))
      (depth < Piece.nestingAll pieces + 1) a := by
  have nodup := wellNamed.nodup.sublist ordered
  have settled : Settles (schema.entries expected depth) (writeObject (pieces.map Piece.member))
      (depth < Piece.nestingAll pieces + 1) (pieces.map Piece.entry) :=
    nested_settles (schema.entries expected) id '\x7b' (.inr rfl) rfl (by decide) rfl
      (fun depth => wellNamed.steps depth pieces [] nodup fun _ _ => List.not_mem_nil)
      (fun _ => ⟨_, rfl⟩) (fun _ _ => (Outcome.andThen_ok _).symm) depth
  exact settled.judge built

end JobQueue.Json.Schema
