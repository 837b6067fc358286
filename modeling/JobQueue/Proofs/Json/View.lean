import JobQueue.Proofs.Json.Spelling
import JobQueue.Proofs.Json.Value

/-! # What readers see in trees

A reader is described by its view, what it makes of each tree: `Views reader depth view` says that of any text
of a tree within the depth the reader reads what the view makes of the tree, and stops at the end of the text,
or refuses the text if the view makes nothing of it. So the reader does not depend on how the tree is spelled.
Readers of arrays and objects have views if the readers of what stands in them have.
-/

namespace JobQueue.Json

namespace Tree

/-! ## Views -/

/-- The number that is spelled, unless it is too large for a double. -/
def numeral? (negative : Bool) (body : List Char) : Option Numeral :=
  (numeralBody negative body).toOption.map Prod.fst

mutual

/-- The value of a tree, if none of its numbers is too large. Of a name that occurs twice in an object the
first place and the last value are kept. -/
def value? : Tree → Option Value
  | null => some .null
  | bool flag => some (.bool flag)
  | number negative body => (numeral? negative body).map Numeral.value
  | string text => some (.string text)
  | array items => (values? items).map .array
  | object members => (entries? members).map fun entries => .object (Dict.ofEntries entries)

def values? : List Tree → Option (List Value)
  | [] => some []
  | item :: rest => do return (← value? item) :: (← values? rest)

def entries? : List (String × Tree) → Option (List (String × Value))
  | [] => some []
  | (name, member) :: rest => do return (name, ← value? member) :: (← entries? rest)

end

/-- A member, seen as a view sees its value. -/
def member? {α : Type} (view : Tree → Option α) (member : String × Tree) : Option (String × α) :=
  (view member.2).map fun a => (member.1, a)

theorem values?_eq_mapM (items : List Tree) : values? items = items.mapM value? := by
  induction items with
  | nil => rfl
  | cons item rest ih => rw [values?, ih, List.mapM_cons]

theorem entries?_eq_mapM (members : List (String × Tree)) :
    entries? members = members.mapM (member? value?) := by
  induction members with
  | nil => rfl
  | cons member rest ih =>
    obtain ⟨name, tree⟩ := member
    rw [entries?, ih, List.mapM_cons, member?]
    cases value? tree <;> rfl

def bool? : Tree → Option Bool
  | bool flag => some flag
  | _ => none

def string? : Tree → Option String
  | string text => some text
  | _ => none

/-- The items of an array, if a view makes something of each. -/
def list? {α : Type} (view : Tree → Option α) : Tree → Option (List α)
  | array items => items.mapM view
  | _ => none

/-- The values of an object by their names. -/
def dict? : Tree → Option (Dict Value)
  | object members => (members.mapM (member? value?)).map Dict.ofEntries
  | _ => none

/-- Nothing for null, or what a view makes of a tree. -/
def optional? {α : Type} (view : Tree → Option α) : Tree → Option (Option α)
  | null => some none
  | tree => (view tree).map some

end Tree

/-- What a reader makes of the texts of trees. -/
structure Views {α : Type} (reader : Reader α) (depth : Nat) (view : Tree → Option α) : Prop where
  sees : ∀ {text : List Char} {tree : Tree}, Spells depth text tree → ∀ {space : List Char}, Blank space →
    ∀ {rest : List Char}, EndsNumeral rest →
      (reader.run (space ++ (text ++ rest))).toOption = (view tree).map fun a => (a, rest)

section Views

variable {α β : Type} {depth : Nat} {text tail rest : List Char} {c : Char} {tree : Tree}

theorem Views.rest_eq {reader : Reader α} {view : Tree → Option α} (views : Views reader depth view)
    (spelled : Spells depth text tree) {space : List Char} (blank : Blank space) (ends : EndsNumeral rest) {a : α}
    {left : List Char} (read : reader.run (space ++ (text ++ rest)) = .ok (a, left)) :
    view tree = some a ∧ left = rest := by
  have seen := views.sees spelled blank ends
  rw [read] at seen
  obtain ⟨b, viewed, equal⟩ := Option.map_eq_some_iff.mp seen.symm
  obtain ⟨rfl, rfl⟩ := Prod.mk.inj equal
  exact ⟨viewed, rfl⟩

theorem SpellsNumber.head {body : List Char} (spelled : SpellsNumber body) :
    ∃ c tail, body = c :: tail ∧ c.isDigit = true := by
  cases spelled with
  | parts digits _ _ =>
    obtain ⟨c, tail, rfl, digit, -⟩ := digits.head []
    exact ⟨c, _, rfl, digit⟩

theorem SpellsNumber.isDigit (spelled : SpellsNumber (c :: tail)) : c.isDigit = true := by
  obtain ⟨_, _, equal, digit⟩ := spelled.head
  rwa [← (List.cons.inj equal).1] at digit

/-- No text of a tree begins with a space or with a closing bracket. -/
theorem Spells.head (spelled : Spells depth text tree) :
    ∃ c tail, text = c :: tail ∧ isSpace c = false ∧ c ≠ ']' := by
  cases spelled with
  | positive number =>
    obtain ⟨c, tail, rfl, digit⟩ := number.head
    exact ⟨c, tail, rfl, isSpace_of_isDigit digit, ne_of_isDigit digit rfl⟩
  | _ => exact ⟨_, _, rfl, rfl, by decide⟩

/-- A number is read as what it is alone, or refused as out of range. -/
theorem SpellsNumber.verdict {body : List Char} (number : SpellsNumber body) (negative : Bool)
    (ends : EndsNumeral rest) :
    Verdict rest (Tree.numeral? negative body) (numeralBody negative (body ++ rest)) := by
  obtain ⟨number?, decides⟩ := number.decides negative
  have alone := (decides [] rfl).toOption
  rw [List.append_nil] at alone
  have same : Tree.numeral? negative body = number? := by
    rw [Tree.numeral?, alone]
    cases number? <;> rfl
  rw [same]
  exact decides rest ends

/-- A reader that skips spaces is described by what it does with the first character that is none. -/
theorem Views.start {reader : Reader α} {read : Char → List Char → Outcome α} {atEnd : Cause}
    {view : Tree → Option α}
    (starts : reader.run = fun text => match skipSpace text with
      | [] => .error (faultPast atEnd [])
      | c :: rest => read c rest)
    (sees : ∀ {c : Char} {tail rest : List Char} {tree : Tree}, Spells depth (c :: tail) tree →
      EndsNumeral rest → (read c (tail ++ rest)).toOption = (view tree).map fun a => (a, rest)) :
    Views reader depth view := by
  constructor
  intro text tree spelled space blank rest ends
  obtain ⟨c, tail, rfl, visible, -⟩ := spelled.head
  simp only [starts, List.cons_append, skipSpace_blank_cons blank visible]
  exact sees spelled ends

/-- A reader at the beginning of a text. -/
theorem Views.run {reader : Reader α} {view : Tree → Option α} (views : Views reader depth view)
    (spelled : Spells depth text tree) (ends : EndsNumeral rest) :
    (reader.run (text ++ rest)).toOption = (view tree).map fun a => (a, rest) :=
  @Views.sees _ _ _ _ views _ _ spelled [] nofun _ ends

theorem Views.judge {reader : Reader α} {view : Tree → Option α} (views : Views reader depth view)
    (f : α → Except Cause β) :
    Views (reader.judge f) depth fun tree => (view tree).bind fun a => (f a).toOption := by
  constructor
  intro text tree spelled space blank rest ends
  simp only [Reader.judge, Outcome.toOption_andThen, views.sees spelled blank ends]
  cases view tree with
  | none => rfl
  | some a =>
    simp only [Option.map_some, Option.bind_some]
    cases f a <;> rfl

theorem Views.optional {reader : Reader α} {view : Tree → Option α} (views : Views reader depth view) :
    Views (optional reader) depth (Tree.optional? view) := by
  constructor
  intro text tree spelled space blank rest ends
  obtain ⟨c, tail, rfl, visible, -⟩ := spelled.head
  have behind := views.run spelled ends
  simp only [Json.optional, List.cons_append, skipSpace_blank_cons blank visible] at behind ⊢
  by_cases null : c = 'n'
  · subst null
    cases spelled with
    | null => rfl
    | positive number => exact absurd number.isDigit (by decide)
  · have some : Tree.optional? view tree = (view tree).map Option.some := by
      cases spelled with
      | null => contradiction
      | _ => rfl
    split
    · next equal => exact absurd (List.cons.inj equal).1 null
    · rw [Outcome.toOption_andThen, behind, some]
      cases view tree <;> rfl

/-! ## Arrays -/

/-- A repetition goes on from the item its step takes, if it takes any. -/
theorem Step.collect_toOption {σ : Type} {step : Step σ α} {state : σ} {taken? : Option (α × σ)}
    (taken : (step.run state text).toOption = taken?.map fun taken => (some taken, rest)) :
    (step.collect state text).toOption = taken?.bind fun taken =>
      (step.collect taken.2 rest).toOption.map fun found => (taken.1 :: found.1, found.2) := by
  rw [Step.collect_eq, Outcome.toOption_andThen, taken]
  cases taken? with
  | none => rfl
  | some next =>
    simp only [Option.map_some, Option.bind_some, Outcome.toOption_andThen]
    cases (step.collect next.2 rest).toOption <;> rfl

theorem elementStep_closed {item : Reader α} {space : List Char} (blank : Blank space) (first : Bool)
    (rest : List Char) : (elementStep item).run first (space ++ ']' :: rest) = .ok (none, rest) := by
  have bracket : isSpace ']' = false := rfl
  simp only [elementStep, nextElement, skipSpace_blank_cons blank bracket]
  rfl

theorem elementStep_run (item : Reader α) {first : Bool} {before : List Char} (opens : Opens first before)
    (spelled : Spells depth text tree) (rest : List Char) :
    (elementStep item).run first (before ++ (text ++ rest)) =
      (item.run (text ++ rest)).andThen fun a left => .ok (some (a, false), left) := by
  obtain ⟨c, tail, rfl, visible, more⟩ := spelled.head
  rw [List.cons_append]
  cases opens with
  | first blank =>
    simp only [elementStep, nextElement, skipSpace_blank_cons blank visible]
    rw [if_neg more, if_pos trivial]
  | next blank inner =>
    have comma : isSpace ',' = false := rfl
    simp only [elementStep, nextElement, List.append_assoc, List.cons_append,
      skipSpace_blank_cons blank comma, skipSpace_blank_cons inner visible]
    rw [if_neg (by decide), if_neg Bool.false_ne_true, if_pos trivial, if_neg more]

theorem elementStep_opened {item : Reader α} {view : Tree → Option α} (views : Views item depth view)
    {first : Bool} {before : List Char} (opens : Opens first before) (spelled : Spells depth text tree)
    (ends : EndsNumeral rest) :
    ((elementStep item).run first (before ++ (text ++ rest))).toOption =
      ((view tree).map fun a => (a, false)).map fun taken => (some taken, rest) := by
  rw [elementStep_run item opens spelled, Outcome.toOption_andThen, views.run spelled ends]
  cases view tree <;> rfl

/-- The items of an array are read as the view of their reader sees them. -/
theorem elements_see {item : Reader α} {view : Tree → Option α} (views : Views item depth view) :
    {first : Bool} → {text : List Char} → {items : List Tree} → SpellsItems depth first text items →
      ∀ rest, ((elementStep item).collect first (text ++ rest)).toOption =
        (items.mapM view).map fun found => (found, rest)
  | first, _, _, .close blank, rest => by
    rw [List.append_assoc]
    exact congrArg Except.toOption (Step.collect_end (elementStep_closed blank first rest))
  | _, _, _, @SpellsItems.item _ _ _ _ _ tree items opens spelled others, rest => by
    rw [List.append_assoc, List.append_assoc, List.mapM_cons,
      Step.collect_toOption (elementStep_opened views opens spelled (others.endsNumeral rest))]
    cases view tree with
    | none => rfl
    | some a =>
      simp only [Option.map_some, Option.bind_some, elements_see views others rest]
      cases items.mapM view <;> rfl

/-! ## Objects -/

theorem nextName_opened {first : Bool} {before key : List Char} {name : String} (opens : Opens first before)
    (chars : SpellsChars key name.toList) :
    nextName first (before ++ '"' :: (key ++ rest)) = .ok (some name, rest) := by
  have quote : isSpace '"' = false := rfl
  cases opens with
  | first blank =>
    simp only [nextName, skipSpace_blank_cons blank quote]
    rw [if_neg (by decide), if_pos trivial, if_pos trivial, chars.reads]
    rfl
  | next blank behind =>
    have comma : isSpace ',' = false := rfl
    simp only [nextName, List.append_assoc, List.cons_append, skipSpace_blank_cons blank comma,
      skipSpace_blank_cons behind quote]
    rw [if_neg (by decide), if_neg Bool.false_ne_true, if_pos trivial, if_pos trivial, chars.reads]
    rfl

theorem nextName_closed {space : List Char} (first : Bool) (blank : Blank space) :
    nextName first (space ++ '\x7d' :: rest) = .ok (none, rest) := by
  have brace : isSpace '\x7d' = false := rfl
  simp only [nextName, skipSpace_blank_cons blank brace]
  rfl

theorem behindColon_spelled {item : Reader α} {space : List Char} (blank : Blank space) :
    behindColon item (space ++ ':' :: rest) = item.run rest := by
  have colon : isSpace ':' = false := rfl
  simp only [behindColon, Json.colon, skipSpace_blank_cons blank colon]
  rfl

theorem memberStep_closed {item : Reader α} {space : List Char} (blank : Blank space) (first : Bool)
    (rest : List Char) : (memberStep item).run first (space ++ '\x7d' :: rest) = .ok (none, rest) := by
  simp only [memberStep, nextName_closed first blank]
  rfl

theorem memberStep_run (item : Reader α) {first : Bool} {before key space : List Char} {name : String}
    (opens : Opens first before) (chars : SpellsChars key name.toList) (blank : Blank space)
    (rest : List Char) :
    (memberStep item).run first (before ++ '"' :: (key ++ (space ++ ':' :: rest))) =
      (item.run rest).andThen fun a left => .ok (some ((name, a), false), left) := by
  simp only [memberStep, nextName_opened opens chars, Outcome.andThen, behindColon_spelled blank]

theorem memberStep_opened {item : Reader α} {view : Tree → Option α} (views : Views item depth view)
    {first : Bool} {before key space gap : List Char} {name : String} (opens : Opens first before)
    (chars : SpellsChars key name.toList) (blank : Blank space) (inner : Blank gap)
    (spelled : Spells depth text tree) (ends : EndsNumeral rest) :
    ((memberStep item).run first
        (before ++ '"' :: (key ++ (space ++ ':' :: (gap ++ (text ++ rest)))))).toOption =
      ((Tree.member? view (name, tree)).map fun member => (member, false)).map
        fun taken => (some taken, rest) := by
  rw [memberStep_run item opens chars blank, Outcome.toOption_andThen, views.sees spelled inner ends, Tree.member?]
  cases view tree <;> rfl

/-- The members of an object are read as the view of the reader of their values sees them. -/
theorem members_see {item : Reader α} {view : Tree → Option α} (views : Views item depth view) :
    {first : Bool} → {text : List Char} → {members : List (String × Tree)} →
      SpellsMembers depth first text members → ∀ rest,
        ((memberStep item).collect first (text ++ rest)).toOption =
          (members.mapM (Tree.member? view)).map fun found => (found, rest)
  | first, _, _, .close blank, rest => by
    rw [List.append_assoc]
    exact congrArg Except.toOption (Step.collect_end (memberStep_closed blank first rest))
  | _, _, _, @SpellsMembers.member _ _ _ _ _ _ _ _ name tree members opens chars blank inner spelled others,
      rest => by
    have taken := memberStep_opened views opens chars blank inner spelled (others.endsNumeral rest)
    simp only [List.append_assoc, List.cons_append]
    rw [List.mapM_cons, Step.collect_toOption taken]
    cases Tree.member? view (name, tree) with
    | none => rfl
    | some member =>
      simp only [Option.map_some, Option.bind_some, members_see views others rest]
      cases members.mapM (Tree.member? view) <;> rfl

/-! ## Values -/

/-- What is read from a first character on is the value of the tree, if what it nests is. -/
theorem valueFrom_sees {nested? : Option (Reader Value)}
    (nested : ∀ inner, depth = inner + 1 → ∃ item, nested? = some item ∧ Views item inner Tree.value?)
    (spelled : Spells depth (c :: tail) tree) (ends : EndsNumeral rest) :
    (valueFrom nested? c (tail ++ rest)).toOption = tree.value?.map fun value => (value, rest) := by
  have numeral {negative : Bool} {body : List Char} (number : SpellsNumber body) :
      ((numeralBody negative (body ++ rest)).andThen fun number left => .ok (number.value, left)).toOption =
        (Tree.value? (.number negative body)).map fun value => (value, rest) := by
    rw [Outcome.toOption_andThen, (number.verdict negative ends).toOption, Tree.value?]
    cases Tree.numeral? negative body <;> rfl
  cases spelled with
  | null => rfl
  | yes => rfl
  | no => rfl
  | positive number =>
    rw [valueFrom_digit nested? number.isDigit, ← List.cons_append]
    exact numeral number
  | negative number => exact numeral number
  | string chars =>
    change ((stringBody.run (tail ++ rest)).andThen _).toOption = _
    rw [chars.reads]
    rfl
  | array items =>
    obtain ⟨item, rfl, views⟩ := nested _ rfl
    change (((elementStep item).collect true (tail ++ rest)).andThen _).toOption = _
    rw [Outcome.toOption_andThen, elements_see views items rest, Tree.value?, Tree.values?_eq_mapM]
    cases List.mapM Tree.value? _ <;> rfl
  | object members =>
    obtain ⟨item, rfl, views⟩ := nested _ rfl
    change (((memberStep item).collect true (tail ++ rest)).andThen _).toOption = _
    rw [Outcome.toOption_andThen, members_see views members rest, Tree.value?, Tree.entries?_eq_mapM]
    cases List.mapM (Tree.member? Tree.value?) _ <;> rfl

theorem value_views (depth : Nat) : Views (value depth) depth Tree.value? := by
  induction depth with
  | zero =>
    refine Views.start rfl (valueFrom_sees ?_)
    rintro inner ⟨⟩
  | succ depth ih =>
    refine Views.start rfl (valueFrom_sees ?_)
    rintro inner ⟨⟩
    exact ⟨value depth, rfl, ih⟩

/-! ## Typed readers -/

theorem string_views (expected : String) (depth : Nat) : Views (string expected) depth Tree.string? := by
  refine Views.start rfl ?_
  intro c tail rest tree spelled ends
  cases spelled with
  | string chars =>
    simp only [if_true, chars.reads]
    rfl
  | positive number =>
    rw [if_neg (ne_of_isDigit number.isDigit rfl)]
    rfl
  | _ => rfl

theorem bool_views (expected : String) (depth : Nat) : Views (bool expected) depth Tree.bool? := by
  refine Views.start rfl ?_
  intro c tail rest tree spelled ends
  cases spelled with
  | positive number =>
    rw [if_neg (ne_of_isDigit number.isDigit rfl), if_neg (ne_of_isDigit number.isDigit rfl)]
    rfl
  | _ => rfl

theorem list_views {expected : String} {item : Nat → Reader α} {view : Tree → Option α}
    (views : ∀ depth, Views (item depth) depth view) (depth : Nat) :
    Views (list expected item depth) depth (Tree.list? view) := by
  refine Views.start rfl ?_
  intro c tail rest tree spelled ends
  cases spelled with
  | array items => exact elements_see (views _) items rest
  | positive number =>
    rw [if_neg (ne_of_isDigit number.isDigit rfl)]
    rfl
  | _ => rfl

theorem dict_views (expected : String) (depth : Nat) : Views (dict expected depth) depth Tree.dict? := by
  refine Views.start rfl ?_
  intro c tail rest tree spelled ends
  cases spelled with
  | @object depth _ _ members =>
    change (((memberStep (value depth)).collect true (tail ++ rest)).andThen _).toOption = _
    rw [Outcome.toOption_andThen, members_see (value_views depth) members rest, Tree.dict?]
    cases List.mapM (Tree.member? Tree.value?) _ <;> rfl
  | positive number =>
    rw [if_neg (ne_of_isDigit number.isDigit rfl)]
    rfl
  | _ => rfl

end Views

end JobQueue.Json
