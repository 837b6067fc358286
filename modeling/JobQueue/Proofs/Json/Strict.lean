import JobQueue.Proofs.Json.Schema
import JobQueue.Proofs.Json.View
import Mathlib.Data.List.Nodup

/-! # Records that are read strictly

The rules of a record say which names its members may have, which of them it needs and what each may hold. A
record is read strictly if just the objects are read that keep to the rules, and if what is read depends on
the members by their names alone. An outline ties a schema to rules: from what the readers of single fields
see follows what the reader of the record sees.
-/

namespace JobQueue.Json

/-! ## Rules -/

def Tree.isNull : Tree → Bool
  | null => true
  | _ => false

/-- What a record says of one of its fields. -/
structure Rule where
  name : String
  required : Bool
  accepts : Tree → Bool

/-- A field that is not required may be null. -/
def Rule.allows (rule : Rule) (tree : Tree) : Bool := rule.accepts tree || (!rule.required && tree.isNull)

/-- The members of an object keep to some rules. -/
structure Admits (rules : List Rule) (members : List (String × Tree)) : Prop where
  /-- Every name is that of a field. -/
  known : ∀ member ∈ members, ∃ rule ∈ rules, rule.name = member.1
  /-- No name occurs twice. -/
  once : (Dict.keys members).Nodup
  /-- Every member holds what its field may hold. -/
  typed : ∀ member ∈ members, ∀ rule ∈ rules, rule.name = member.1 → rule.allows member.2 = true
  /-- Every required field is there. -/
  complete : ∀ rule ∈ rules, rule.required = true → rule.name ∈ Dict.keys members

theorem admits_iff (rules : List Rule) (members : List (String × Tree)) :
    Admits rules members ↔ (∀ member ∈ members, ∃ rule ∈ rules, rule.name = member.1) ∧
      (Dict.keys members).Nodup ∧
      (∀ member ∈ members, ∀ rule ∈ rules, rule.name = member.1 → rule.allows member.2 = true) ∧
      ∀ rule ∈ rules, rule.required = true → rule.name ∈ Dict.keys members :=
  ⟨fun ⟨known, once, typed, complete⟩ => ⟨known, once, typed, complete⟩,
    fun ⟨known, once, typed, complete⟩ => ⟨known, once, typed, complete⟩⟩

instance (rules : List Rule) (members : List (String × Tree)) : Decidable (Admits rules members) :=
  decidable_of_iff _ (admits_iff rules members).symm

/-- What the member of a name holds; null is nothing. -/
def given (members : List (String × Tree)) (name : String) : Option Tree :=
  (Dict.get? members name).filter fun tree => !tree.isNull

/-- The record of an object that keeps to the rules, made of what its members hold by their names. -/
def Tree.record? {α : Type} (rules : List Rule) (recordOf? : (String → Option Tree) → Option α) :
    Tree → Option α
  | object members => if Admits rules members then recordOf? (given members) else none
  | _ => none

/-- A decoder reads the records of some rules, and in each of them what its members hold by their names. -/
structure Strict {ε α : Type} (decode : String → Except ε α) (rules : List Rule)
    (recordOf? : (String → Option Tree) → Option α) : Prop where
  /-- The objects that are decoded are those that keep to the rules. -/
  decodes : ∀ {text members}, SpellsObject (String.toList text) members →
    ((∃ record, decode text = .ok record) ↔ Admits rules members)
  /-- What is decoded is made of what the members hold by their names. -/
  record : ∀ {text members}, SpellsObject (String.toList text) members → ∀ {record},
    decode text = .ok record →
    recordOf? (given members) = some record
  /-- The order of the members does not matter, nor how they are spelled. -/
  permuted : ∀ {text other members others}, SpellsObject (String.toList text) members →
    SpellsObject (String.toList other) others → members.Perm others →
      ∀ record, decode text = .ok record ↔ decode other = .ok record
  /-- A field that is not required may be null or absent alike. -/
  absent : ∀ {rule}, rule ∈ rules → rule.required = false → ∀ {text other before behind},
    SpellsObject (String.toList text) (before ++ behind) →
      SpellsObject (String.toList other) (before ++ (rule.name, .null) :: behind) →
        rule.name ∉ Dict.keys (before ++ behind) →
          ∀ record, decode other = .ok record ↔ decode text = .ok record

/-! ## Order, and null members -/

section Admits

variable {rules : List Rule} {members others before behind : List (String × Tree)}

theorem Admits.perm (admits : Admits rules members) (same : members.Perm others) : Admits rules others where
  known member among := admits.known member (same.mem_iff.mpr among)
  once := (same.map Prod.fst).nodup admits.once
  typed member among := admits.typed member (same.mem_iff.mpr among)
  complete rule among required := (same.map Prod.fst).mem_iff.mp (admits.complete rule among required)

theorem given_perm (once : (Dict.keys members).Nodup) (same : members.Perm others) :
    given others = given members := by
  funext name
  rw [given, given, Dict.get?_perm once same]

theorem keys_middle (before behind : List (String × Tree)) (name : String) (tree : Tree) :
    (Dict.keys (before ++ (name, tree) :: behind)).Perm (name :: Dict.keys (before ++ behind)) :=
  (List.perm_middle.map Prod.fst : ((before ++ (name, tree) :: behind).map Prod.fst).Perm _)

/-- A null under the name of an optional field changes nothing about an object without that name. -/
theorem admits_null_iff (distinct : (rules.map Rule.name).Nodup) {rule : Rule} (among : rule ∈ rules)
    (optional : rule.required = false) (fresh : rule.name ∉ Dict.keys (before ++ behind)) :
    Admits rules (before ++ (rule.name, .null) :: behind) ↔ Admits rules (before ++ behind) := by
  have only {other : Rule} (listed : other ∈ rules) (named : other.name = rule.name) : other = rule :=
    List.inj_on_of_nodup_map distinct listed among named
  have keys := keys_middle before behind rule.name .null
  constructor
  · rintro ⟨known, once, typed, complete⟩
    refine ⟨?_, (List.nodup_cons.mp (keys.nodup once)).2, ?_, ?_⟩
    · intro member within
      exact known member (List.perm_middle.mem_iff.mpr (List.mem_cons_of_mem _ within))
    · intro member within
      exact typed member (List.perm_middle.mem_iff.mpr (List.mem_cons_of_mem _ within))
    · intro other listed required
      rcases List.mem_cons.mp (keys.mem_iff.mp (complete other listed required)) with named | present
      · rw [only listed named, optional] at required
        contradiction
      · exact present
  · rintro ⟨known, once, typed, complete⟩
    refine ⟨?_, keys.symm.nodup (List.nodup_cons.mpr ⟨fresh, once⟩), ?_, ?_⟩
    · intro member within
      rcases List.mem_cons.mp (List.perm_middle.mem_iff.mp within) with rfl | within
      · exact ⟨rule, among, rfl⟩
      · exact known member within
    · intro member within other listed named
      rcases List.mem_cons.mp (List.perm_middle.mem_iff.mp within) with rfl | within
      · rw [only listed named, Rule.allows, optional]
        exact Bool.or_true _
      · exact typed member within other listed named
    · intro other listed required
      exact keys.mem_iff.mpr (List.mem_cons_of_mem _ (complete other listed required))

theorem given_null {name : String} (fresh : name ∉ Dict.keys (before ++ behind)) :
    given (before ++ (name, .null) :: behind) = given (before ++ behind) := by
  funext wanted
  rw [given, given, Dict.get?_append, Dict.get?_append, Dict.get?_cons]
  by_cases same : name = wanted
  · subst same
    have nowhere := (Dict.get?_eq_none_iff _ _).mpr fresh
    rw [Dict.get?_append, Option.or_eq_none_iff] at nowhere
    rw [nowhere.1, nowhere.2, if_pos rfl]
    rfl
  · rw [if_neg same]

end Admits

/-- A decoder is strict if it decodes the records of the rules, and of each object that keeps to them one. -/
theorem strict_of_record? {ε α : Type} {decode : String → Except ε α} {rules : List Rule}
    {recordOf? : (String → Option Tree) → Option α} (distinct : (rules.map Rule.name).Nodup)
    (whole : ∀ {members}, Admits rules members → (recordOf? (given members)).isSome = true)
    (decoded : ∀ {text members}, SpellsObject (String.toList text) members →
      (decode text).toOption = Tree.record? rules recordOf? (.object members)) :
    Strict decode rules recordOf? := by
  have decode_iff {text members} (spelled : SpellsObject (String.toList text) members) (record : α) :
      decode text = .ok record ↔ Admits rules members ∧ recordOf? (given members) = some record := by
    have same : decode text = .ok record ↔ (decode text).toOption = some record := by
      cases decode text with
      | error fault => exact ⟨nofun, nofun⟩
      | ok other => simp [Except.toOption]
    rw [same, decoded spelled, Tree.record?]
    split
    · next admits => exact ⟨fun found => ⟨admits, found⟩, And.right⟩
    · next admits => exact ⟨nofun, fun found => absurd found.1 admits⟩
  refine ⟨?_, ?_, ?_, ?_⟩
  · intro text members spelled
    constructor
    · rintro ⟨record, ok⟩
      exact ((decode_iff spelled record).mp ok).1
    · intro admits
      obtain ⟨record, made⟩ := Option.isSome_iff_exists.mp (whole admits)
      exact ⟨record, (decode_iff spelled record).mpr ⟨admits, made⟩⟩
  · intro text members spelled record ok
    exact ((decode_iff spelled record).mp ok).2
  · intro text other members others spelled respelled same record
    rw [decode_iff spelled, decode_iff respelled]
    constructor
    · rintro ⟨admits, made⟩
      exact ⟨admits.perm same, given_perm admits.once same ▸ made⟩
    · rintro ⟨admits, made⟩
      exact ⟨admits.perm same.symm, given_perm admits.once same.symm ▸ made⟩
  · intro rule among optional text other before behind spelled respelled fresh record
    rw [decode_iff spelled, decode_iff respelled, admits_null_iff distinct among optional fresh,
      given_null fresh]

/-! ## Outlines -/

namespace Schema

/-- How a schema follows some rules: what is seen in each field, and by which rule. -/
structure Outline (schema : Schema) (rules : List Rule) where
  view : (field : schema.Field) → Tree → Option (schema.Content field)
  rule : schema.Field → Rule
  views : ∀ field depth, Views (schema.read field depth) depth (view field)
  listed : schema.fields.map rule = rules
  named : ∀ field, (rule field).name = schema.name field
  allowed : ∀ field tree, (view field tree).isSome = (rule field).allows tree
  nothing : ∀ field, (rule field).accepts .null = false

namespace Outline

variable {schema : Schema} {rules : List Rule} (outline : schema.Outline rules)

theorem entryStep_closed {depth : Nat} {space : List Char} (blank : Blank space) (seen : List schema.Field)
    (rest : List Char) : (schema.entryStep depth).run seen (space ++ '\x7d' :: rest) = .ok (none, rest) := by
  simp only [entryStep, nextName_closed _ blank]
  rfl

/-- A field seen for the first time. -/
def taken? (seen : List schema.Field) (name : String) (tree : Tree) :
    Option (schema.Entry × List schema.Field) :=
  (schema.field? name).bind fun field => (outline.view field tree).bind fun content =>
    if seen.contains field then none else some (⟨field, content⟩, field :: seen)

theorem taken?_eq_some_iff {seen : List schema.Field} {name : String} {tree : Tree}
    {taken : schema.Entry × List schema.Field} :
    outline.taken? seen name tree = some taken ↔ ∃ field content, schema.field? name = some field ∧
      outline.view field tree = some content ∧ field ∉ seen ∧ (⟨field, content⟩, field :: seen) = taken := by
  simp only [taken?, Option.bind_eq_some_iff, List.contains_iff_mem, Option.ite_none_left_eq_some,
    Option.some.injEq]
  constructor
  · rintro ⟨field, named, content, viewed, taken⟩
    exact ⟨field, content, named, viewed, taken⟩
  · rintro ⟨field, content, named, viewed, taken⟩
    exact ⟨field, named, content, viewed, taken⟩

/-- What the fields hold, taken one after the other. -/
def gather : List schema.Field → List (String × Tree) → Option (List schema.Entry)
  | _, [] => some []
  | seen, (name, tree) :: rest => (outline.taken? seen name tree).bind fun taken =>
    (gather taken.2 rest).map fun entries => taken.1 :: entries

/-- The fields of an object. -/
def entries? : Tree → Option (List schema.Entry)
  | .object members => outline.gather [] members
  | _ => none

theorem entryStep_opened {depth : Nat} {seen : List schema.Field} {before key space gap text rest : List Char}
    {name : String} {tree : Tree} (opens : Opens seen.isEmpty before) (chars : SpellsChars key name.toList)
    (blank : Blank space) (inner : Blank gap) (spelled : Spells depth text tree) (ends : EndsNumeral rest) :
    ((schema.entryStep depth).run seen
        (before ++ '"' :: (key ++ (space ++ ':' :: (gap ++ (text ++ rest)))))).toOption =
      (outline.taken? seen name tree).map fun taken => (some taken, rest) := by
  simp only [entryStep, nextName_opened opens chars, Outcome.andThen, taken?]
  cases schema.field? name with
  | none => rfl
  | some field =>
    simp only [behindColon_spelled blank]
    change (((schema.read field depth).run _).andThen _).toOption = _
    rw [Outcome.toOption_andThen, (outline.views field depth).sees spelled inner ends, Option.bind_some]
    cases outline.view field tree with
    | none => rfl
    | some content =>
      simp only [Option.map_some, Option.bind_some, List.contains_iff_mem]
      split <;> rfl

/-- The fields of an object are read as the outline sees them. -/
theorem entryStep_sees {depth : Nat} : {first : Bool} → {text : List Char} →
    {members : List (String × Tree)} →
    SpellsMembers depth first text members → ∀ (seen : List schema.Field), seen.isEmpty = first → ∀ rest,
      ((schema.entryStep depth).collect seen (text ++ rest)).toOption =
        (outline.gather seen members).map fun entries => (entries, rest)
  | _, _, _, .close blank, seen, _, rest => by
    rw [List.append_assoc]
    exact congrArg Except.toOption (Step.collect_end (entryStep_closed blank seen rest))
  | _, _, _, @SpellsMembers.member _ _ _ _ _ _ _ _ name tree members opens chars blank inner spelled others,
      seen, begins, rest => by
    subst begins
    have opened := outline.entryStep_opened opens chars blank inner spelled (others.endsNumeral rest)
    simp only [List.append_assoc, List.cons_append]
    rw [gather, Step.collect_toOption opened]
    cases taken : outline.taken? seen name tree with
    | none => rfl
    | some first =>
      have begun : first.2.isEmpty = false := by
        obtain ⟨field, content, -, -, -, rfl⟩ := (outline.taken?_eq_some_iff).mp taken
        rfl
      simp only [Option.bind_some, entryStep_sees others first.2 begun rest]
      cases outline.gather first.2 members <;> rfl

theorem entries_views (expected : String) (depth : Nat) :
    Views (schema.entries expected depth) depth outline.entries? := by
  refine Views.start rfl ?_
  intro c tail rest tree spelled ends
  cases spelled with
  | object members => exact outline.entryStep_sees members [] rfl rest
  | positive number =>
    rw [if_neg (ne_of_isDigit number.isDigit rfl)]
    rfl
  | _ => rfl

/-! ## What is gathered -/

variable {outline}

variable (outline) in
theorem mem_rules_iff {rule : Rule} : rule ∈ rules ↔ ∃ field ∈ schema.fields, outline.rule field = rule :=
  (iff_of_eq (congrArg (rule ∈ ·) outline.listed)).symm.trans List.mem_map

theorem gather_cons_eq_some_iff {seen : List schema.Field} {name : String} {tree : Tree}
    {rest : List (String × Tree)} {entries : List schema.Entry} :
    outline.gather seen ((name, tree) :: rest) = some entries ↔
      ∃ field content others, schema.field? name = some field ∧ outline.view field tree = some content ∧
        field ∉ seen ∧ outline.gather (field :: seen) rest = some others ∧
          entries = ⟨field, content⟩ :: others := by
  simp only [gather, Option.bind_eq_some_iff, Option.map_eq_some_iff, taken?_eq_some_iff]
  constructor
  · rintro ⟨_, ⟨field, content, named, viewed, fresh, rfl⟩, others, gathered, rfl⟩
    exact ⟨field, content, others, named, viewed, fresh, gathered, rfl⟩
  · rintro ⟨field, content, others, named, viewed, fresh, gathered, rfl⟩
    exact ⟨_, ⟨field, content, named, viewed, fresh, rfl⟩, others, gathered, rfl⟩

section Gathered

variable (wellNamed : schema.WellNamed)

include wellNamed

theorem field?_eq_some_iff {name : String} {field : schema.Field} :
    schema.field? name = some field ↔ schema.name field = name := by
  constructor
  · intro found
    simpa using List.find?_some found
  · rintro rfl
    exact wellNamed.named field

theorem field_of_name {field other : schema.Field} (same : schema.name field = schema.name other) :
    field = other := by
  have found := wellNamed.named field
  rw [same, wellNamed.named other] at found
  exact (Option.some.inj found).symm

theorem mem_fields (field : schema.Field) : field ∈ schema.fields :=
  List.mem_of_find?_eq_some (wellNamed.named field)

/-- No two rules are of one name. -/
theorem distinct (outline : schema.Outline rules) : (rules.map Rule.name).Nodup := by
  have names : rules.map Rule.name = schema.fields.map schema.name := by
    rw [← congrArg (List.map Rule.name) outline.listed, List.map_map]
    exact List.map_congr_left fun field _ => outline.named field
  rw [names]
  exact wellNamed.nodup.map fun _ _ same => field_of_name wellNamed same

/-- The fields are gathered if every name is that of a field, none occurs twice and each value is seen. -/
theorem gather_isSome_iff (seen : List schema.Field) (members : List (String × Tree)) :
    (outline.gather seen members).isSome = true ↔
      (∀ member ∈ members, ∃ field, schema.name field = member.1 ∧ field ∉ seen ∧
        (outline.view field member.2).isSome = true) ∧ (Dict.keys members).Nodup := by
  induction members generalizing seen with
  | nil => exact ⟨fun _ => ⟨nofun, List.nodup_nil⟩, fun _ => rfl⟩
  | cons member rest ih =>
    obtain ⟨name, tree⟩ := member
    rw [List.forall_mem_cons, show Dict.keys ((name, tree) :: rest) = name :: Dict.keys rest from rfl,
      List.nodup_cons]
    constructor
    · intro gathered
      obtain ⟨entries, gathered⟩ := Option.isSome_iff_exists.mp gathered
      obtain ⟨field, content, others, found, viewed, fresh, gathered, -⟩ :=
        gather_cons_eq_some_iff.mp gathered
      have named := (field?_eq_some_iff wellNamed).mp found
      obtain ⟨each, distinct⟩ := (ih (field :: seen)).mp (Option.isSome_iff_exists.mpr ⟨_, gathered⟩)
      refine ⟨⟨⟨field, named, fresh, Option.isSome_iff_exists.mpr ⟨_, viewed⟩⟩, ?_⟩, ?_, distinct⟩
      · intro member among
        obtain ⟨other, same, unseen, viewed⟩ := each member among
        exact ⟨other, same, fun before => unseen (List.mem_cons_of_mem _ before), viewed⟩
      · intro again
        obtain ⟨member, among, rfl⟩ := List.mem_map.mp again
        obtain ⟨other, same, unseen, -⟩ := each member among
        rw [field_of_name wellNamed (same.trans named.symm)] at unseen
        exact unseen (List.mem_cons_self ..)
    · rintro ⟨⟨⟨field, named, fresh, viewed⟩, each⟩, new, distinct⟩
      obtain ⟨content, viewed⟩ := Option.isSome_iff_exists.mp viewed
      have others : (outline.gather (field :: seen) rest).isSome = true := by
        refine (ih (field :: seen)).mpr ⟨?_, distinct⟩
        intro member among
        obtain ⟨other, same, unseen, viewed⟩ := each member among
        refine ⟨other, same, ?_, viewed⟩
        rw [List.mem_cons, not_or]
        refine ⟨?_, unseen⟩
        rintro rfl
        exact new (List.mem_map.mpr ⟨member, among, same.symm.trans named⟩)
      obtain ⟨entries, gathered⟩ := Option.isSome_iff_exists.mp others
      exact Option.isSome_iff_exists.mpr ⟨_, gather_cons_eq_some_iff.mpr
        ⟨field, content, entries, (field?_eq_some_iff wellNamed).mpr named, viewed, fresh, gathered, rfl⟩⟩

/-- What is gathered of a field is what is seen in the member of its name. -/
theorem content?_gather {seen : List schema.Field} {members : List (String × Tree)}
    {entries : List schema.Entry} (gathered : outline.gather seen members = some entries)
    (field : schema.Field) :
    schema.content? field entries = (Dict.get? members (schema.name field)).bind (outline.view field) := by
  induction members generalizing seen entries with
  | nil =>
    cases gathered
    rfl
  | cons member rest ih =>
    obtain ⟨name, tree⟩ := member
    obtain ⟨found, content, others, named, viewed, -, behind, rfl⟩ := gather_cons_eq_some_iff.mp gathered
    obtain rfl := (field?_eq_some_iff wellNamed).mp named
    rw [content?, Dict.get?_cons]
    by_cases same : found = field
    · subst same
      rw [dif_pos rfl, if_pos rfl, Option.bind_some, viewed]
    · rw [dif_neg same, if_neg fun equal => same (field_of_name wellNamed equal), ih behind]

variable (outline) in
/-- The fields of an object are gathered if it keeps to the rules, but for fields that are missing. -/
theorem gather_isSome_iff_rules (members : List (String × Tree)) :
    (outline.gather [] members).isSome = true ↔
      (∀ member ∈ members, ∃ rule ∈ rules, rule.name = member.1) ∧ (Dict.keys members).Nodup ∧
        ∀ member ∈ members, ∀ rule ∈ rules, rule.name = member.1 → rule.allows member.2 = true := by
  rw [gather_isSome_iff wellNamed]
  constructor
  · rintro ⟨each, distinct⟩
    refine ⟨?_, distinct, ?_⟩
    · intro member among
      obtain ⟨field, named, -, -⟩ := each member among
      exact ⟨outline.rule field, outline.mem_rules_iff.mpr ⟨field, mem_fields wellNamed field, rfl⟩,
        (outline.named field).trans named⟩
    · intro member among rule listed same
      obtain ⟨field, named, -, viewed⟩ := each member among
      obtain ⟨other, -, rfl⟩ := outline.mem_rules_iff.mp listed
      rw [outline.named, ← named] at same
      rw [field_of_name wellNamed same, ← outline.allowed]
      exact viewed
  · rintro ⟨known, distinct, typed⟩
    refine ⟨?_, distinct⟩
    intro member among
    obtain ⟨rule, listed, same⟩ := known member among
    have allowed := typed member among rule listed same
    obtain ⟨field, -, rfl⟩ := outline.mem_rules_iff.mp listed
    exact ⟨field, (outline.named field).symm.trans same, List.not_mem_nil,
      (outline.allowed field _).trans allowed⟩

end Gathered

/-! ## Records -/

/-- A record is made of its fields by their names, and can be made if those it needs are there. -/
structure Builds {α : Type} (outline : schema.Outline rules) (build : List schema.Entry → Except Cause α)
    (recordOf? : (String → Option Tree) → Option α) : Prop where
  built : ∀ {entries members},
    (∀ field, schema.content? field entries =
      (Dict.get? members (schema.name field)).bind (outline.view field)) →
      (build entries).toOption = recordOf? (given members)
  needs : ∀ told, (recordOf? told).isSome = true ↔ ∀ field, (outline.rule field).required = true →
    ((told (schema.name field)).bind (outline.view field)).isSome = true

section Records

variable {α : Type} {build : List schema.Entry → Except Cause α}
  {recordOf? : (String → Option Tree) → Option α} (wellNamed : schema.WellNamed)
  (builds : outline.Builds build recordOf?)

include wellNamed builds

/-- Of an object that keeps to the rules a record can be made. -/
theorem Builds.isSome_of_admits {members : List (String × Tree)} (admits : Admits rules members) :
    (recordOf? (given members)).isSome = true := by
  rw [builds.needs]
  intro field required
  have listed := outline.mem_rules_iff.mpr ⟨field, mem_fields wellNamed field, rfl⟩
  obtain ⟨⟨_, tree⟩, among, rfl⟩ := List.mem_map.mp (admits.complete _ listed required)
  have allowed := admits.typed _ among _ listed rfl
  have there : tree.isNull = false := by
    cases tree with
    | null =>
      rw [Rule.allows, outline.nothing, required] at allowed
      contradiction
    | _ => rfl
  rw [← outline.named, given, Dict.get?_of_mem admits.once among]
  simp only [Option.filter_some, there, Bool.not_false, if_true, Option.bind_some, outline.allowed]
  exact allowed

/-- An object of which the fields are gathered and a record is made keeps to the rules. -/
theorem Builds.admits_of_isSome {members : List (String × Tree)}
    (gathered : (outline.gather [] members).isSome = true)
    (made : (recordOf? (given members)).isSome = true) :
    Admits rules members := by
  obtain ⟨known, once, typed⟩ := (gather_isSome_iff_rules outline wellNamed members).mp gathered
  refine ⟨known, once, typed, ?_⟩
  intro rule listed required
  obtain ⟨field, -, rfl⟩ := outline.mem_rules_iff.mp listed
  have there := (builds.needs _).mp made field required
  rw [outline.named]
  by_contra absent
  rw [given, (Dict.get?_eq_none_iff _ _).mpr absent] at there
  contradiction

/-- The record of an object is read by the rules. -/
theorem Builds.views (expected : String) (depth : Nat) :
    Views (schema.record expected build depth) depth (Tree.record? rules recordOf?) := by
  have judged := (outline.entries_views expected depth).judge build
  have same : (fun tree => (outline.entries? tree).bind fun entries => (build entries).toOption) =
      Tree.record? rules recordOf? := by
    funext tree
    cases tree with
    | object members =>
      rw [entries?, Tree.record?]
      cases gathered : outline.gather [] members with
      | none =>
        have not : ¬ Admits rules members := by
          rintro ⟨known, once, typed, -⟩
          have some := (gather_isSome_iff_rules outline wellNamed members).mpr ⟨known, once, typed⟩
          rw [gathered] at some
          contradiction
        rw [if_neg not]
        rfl
      | some entries =>
        rw [Option.bind_some, builds.built (content?_gather wellNamed gathered)]
        split
        · rfl
        · next not =>
          cases made : recordOf? (given members) with
          | none => rfl
          | some record =>
            exact absurd (builds.admits_of_isSome wellNamed (by rw [gathered]; rfl) (by rw [made]; rfl)) not
    | _ => rfl
  rwa [same] at judged

end Records

end Outline

end Schema

end JobQueue.Json
