import JobQueue.Proofs.Json.Collected
import JobQueue.Proofs.Json.Strict

/-! # Numbers in and out of range

An integer of 64 bits is read as it is written. A larger one is read as a double or refused as out of range,
and so is every other number. This is the one fault that numbers bring into a text: where a reader refuses a
text that it would not refuse without the numbers that are out of range, it refuses one of these.
-/

namespace JobQueue

/-- The integers of 64 bits: from `-2 ^ 63` on, and below `2 ^ 63`. -/
def IsInt64 (n : Int) : Prop := -0x8000000000000000 ≤ n ∧ n < 0x8000000000000000

instance (n : Int) : Decidable (IsInt64 n) := inferInstanceAs (Decidable (_ ∧ _))

theorem toInt_of_isInt64 {n : Int} (small : IsInt64 n) : (Int64.ofInt n).toInt = n :=
  Int64.toInt_ofInt_of_le small.1 small.2

namespace Json

/-! ## Integers -/

theorem numeral?_literal {n : Int} (fits : n.natAbs < UInt64.size) :
    Tree.numeral? (decide (n < 0)) (Nat.toDigits 10 n.natAbs) =
      some (wholeNumeral (decide (n < 0)) n.natAbs) := by
  have read := @numeralBody_toDigits (decide (n < 0)) _ fits [] rfl
  rw [List.append_nil] at read
  rw [Tree.numeral?, read]
  rfl

/-- An integer of 64 bits is that integer. -/
theorem value?_literal {n : Int} (small : IsInt64 n) :
    (Tree.literal n).value? = some (.int (Int64.ofInt n)) := by
  have fits : n.natAbs < UInt64.size := by
    obtain ⟨lower, upper⟩ := small
    simp only [UInt64.size]
    omega
  rw [Tree.literal, Tree.value?, numeral?_literal fits, Option.map_some, wholeNumeral_value small.1 small.2]

/-- An integer of more than 64 bits is never an integer again. -/
theorem float_of_value?_literal {n : Int} (large : ¬ IsInt64 n) {v : Value}
    (seen : (Tree.literal n).value? = some v) : ∃ x, v = .float x := by
  rw [Tree.literal, Tree.value?] at seen
  obtain ⟨numeral, read, rfl⟩ := Option.map_eq_some_iff.mp seen
  rw [IsInt64] at large
  by_cases fits : n.natAbs < UInt64.size
  · rw [numeral?_literal fits] at read
    obtain rfl := Option.some.inj read
    by_cases negative : n < 0
    · have beyond : n.natAbs = 0 ∨ 0x8000000000000000 < n.natAbs := by omega
      rw [decide_eq_true negative, wholeNumeral, if_neg (by decide), if_pos beyond]
      exact ⟨_, rfl⟩
    · have beyond : ¬ (n.natAbs : Int) < 0x8000000000000000 := by omega
      rw [decide_eq_false negative, wholeNumeral, if_pos (by decide), Numeral.value, if_neg beyond]
      exact ⟨_, rfl⟩
  · obtain ⟨significand, exponent, dropped⟩ :=
      numeralBody_toDigits_of_le (decide (n < 0)) (Nat.not_lt.mp fits)
    rw [Tree.numeral?, dropped, (finishFloat_verdict _ _ _ _).toOption] at read
    cases found : floatOf? (decide (n < 0)) significand exponent with
    | none =>
      rw [found] at read
      contradiction
    | some x =>
      rw [found] at read
      obtain rfl := Option.some.inj read
      exact ⟨x, rfl⟩

/-! ## Trees without the numbers that are out of range -/

namespace Tree

mutual

/-- No number is out of range. -/
def Fits : Tree → Prop
  | number negative body => (numeral? negative body).isSome = true
  | array items => FitsItems items
  | object members => FitsMembers members
  | _ => True

def FitsItems : List Tree → Prop
  | [] => True
  | item :: rest => Fits item ∧ FitsItems rest

def FitsMembers : List (String × Tree) → Prop
  | [] => True
  | (_, member) :: rest => Fits member ∧ FitsMembers rest

end

mutual

/-- The tree with zeros for the numbers that are out of range. -/
def tamed : Tree → Tree
  | number negative body => if (numeral? negative body).isSome then number negative body else literal 0
  | array items => array (tamedItems items)
  | object members => object (tamedMembers members)
  | tree => tree

def tamedItems : List Tree → List Tree
  | [] => []
  | item :: rest => tamed item :: tamedItems rest

def tamedMembers : List (String × Tree) → List (String × Tree)
  | [] => []
  | (name, member) :: rest => (name, tamed member) :: tamedMembers rest

end

mutual

theorem tamed_of_fits : (tree : Tree) → tree.Fits → tree.tamed = tree
  | number _ _, fits => if_pos fits
  | array items, fits => congrArg array (tamedItems_of_fits items fits)
  | object members, fits => congrArg object (tamedMembers_of_fits members fits)
  | null, _ => rfl
  | bool _, _ => rfl
  | string _, _ => rfl

theorem tamedItems_of_fits : (items : List Tree) → FitsItems items → tamedItems items = items
  | [], _ => rfl
  | item :: rest, fits => by
    rw [tamedItems, tamed_of_fits item fits.1, tamedItems_of_fits rest fits.2]

theorem tamedMembers_of_fits : (members : List (String × Tree)) → FitsMembers members →
    tamedMembers members = members
  | [], _ => rfl
  | (_, member) :: rest, fits => by
    rw [tamedMembers, tamed_of_fits member fits.1, tamedMembers_of_fits rest fits.2]

end

theorem tamedItems_eq_map (items : List Tree) : tamedItems items = items.map tamed := by
  induction items with
  | nil => rfl
  | cons item rest ih => rw [tamedItems, ih, List.map_cons]

theorem tamedMembers_eq_map (members : List (String × Tree)) :
    tamedMembers members = members.map fun member => (member.1, member.2.tamed) := by
  induction members with
  | nil => rfl
  | cons member rest ih => rw [tamedMembers, ih, List.map_cons]

theorem keys_tamedMembers (members : List (String × Tree)) :
    Dict.keys (tamedMembers members) = Dict.keys members := by
  rw [tamedMembers_eq_map, Dict.keys, List.map_map]
  rfl

theorem fits_literal {n : Int} (small : IsInt64 n) : (literal n).Fits := by
  have seen := value?_literal small
  rw [literal, value?] at seen
  obtain ⟨numeral, read, -⟩ := Option.map_eq_some_iff.mp seen
  exact Option.isSome_iff_exists.mpr ⟨numeral, read⟩

end Tree

/-! ## Readers of tamed trees -/

/-- Where a reader reads the tamed tree, it refuses nothing in the text but a number out of range. -/
structure Overflows {α : Type} (reader : Reader α) (depth : Nat) (view : Tree → Option α) : Prop where
  only : ∀ {text : List Char} {tree : Tree}, Spells depth text tree → (view tree.tamed).isSome = true →
    ∀ {space : List Char}, Blank space → ∀ {rest : List Char}, EndsNumeral rest → ∀ {fault : Fault},
      reader.run (space ++ (text ++ rest)) = .error fault → fault.cause = .numberOutOfRange

section Overflows

variable {α β : Type} {depth : Nat} {text tail rest : List Char} {c : Char} {tree : Tree} {fault : Fault}

theorem Overflows.run {reader : Reader α} {view : Tree → Option α} (overflows : Overflows reader depth view)
    (spelled : Spells depth text tree) (tame : (view tree.tamed).isSome = true) (ends : EndsNumeral rest)
    (refused : reader.run (text ++ rest) = .error fault) : fault.cause = .numberOutOfRange :=
  @Overflows.only _ _ _ _ overflows _ _ spelled tame [] blank_nil _ ends _ refused

/-- A reader that is blind for numbers refuses nothing in a text whose tamed tree it reads. -/
theorem Views.overflows {reader : Reader α} {view : Tree → Option α} (views : Views reader depth view)
    (blind : ∀ tree, view tree.tamed = view tree) : Overflows reader depth view := by
  constructor
  intro text tree spelled tame space blank rest ends fault refused
  have seen := views.sees spelled blank ends
  rw [refused] at seen
  rw [blind, ← Option.isSome_map, ← seen] at tame
  contradiction

/-- A reader that skips spaces refuses what it refuses from the first character that is none. -/
theorem Overflows.start {reader : Reader α} {read : Char → List Char → Outcome α} {atEnd : Cause}
    {view : Tree → Option α}
    (starts : reader.run = fun text => match skipSpace text with
      | [] => .error (faultPast atEnd [])
      | c :: rest => read c rest)
    (only : ∀ {c : Char} {tail rest : List Char} {tree : Tree} {fault : Fault}, Spells depth (c :: tail) tree →
      (view tree.tamed).isSome = true → EndsNumeral rest → read c (tail ++ rest) = .error fault →
        fault.cause = .numberOutOfRange) :
    Overflows reader depth view := by
  constructor
  intro text tree spelled tame space blank rest ends fault refused
  obtain ⟨c, tail, rfl, visible, -⟩ := spelled.head
  simp only [starts, List.cons_append, skipSpace_blank_cons blank visible] at refused
  exact only spelled tame ends refused

theorem Overflows.optional {reader : Reader α} {view : Tree → Option α}
    (overflows : Overflows reader depth view) :
    Overflows (optional reader) depth (Tree.optional? view) := by
  constructor
  intro text tree spelled tame space blank rest ends fault refused
  obtain ⟨c, tail, rfl, visible, -⟩ := spelled.head
  simp only [Json.optional, List.cons_append, skipSpace_blank_cons blank visible] at refused
  by_cases null : c = 'n'
  · subst null
    cases spelled with
    | null => contradiction
    | positive number => exact absurd number.isDigit (by decide)
  · have some : Tree.optional? view tree.tamed = (view tree.tamed).map Option.some := by
      cases spelled with
      | null => contradiction
      | positive _ | negative _ => rw [Tree.tamed]; split <;> rfl
      | _ => rfl
    rw [some, Option.isSome_map] at tame
    split at refused
    · next equal => exact absurd (List.cons.inj equal).1 null
    · exact overflows.run spelled tame ends (Outcome.andThen_ok_eq_error.mp refused)

/-! ## Arrays and objects -/

theorem elements_overflow {item : Reader α} {view : Tree → Option α} (views : Views item depth view)
    (overflows : Overflows item depth view) :
    {first : Bool} → {text : List Char} → {items : List Tree} → SpellsItems depth first text items →
      (∀ tree ∈ items, (view tree.tamed).isSome = true) → ∀ rest {fault},
        (elementStep item).collect first (text ++ rest) = .error fault → fault.cause = .numberOutOfRange
  | first, _, _, .close blank, _, rest, fault, refused => by
    rw [List.append_assoc] at refused
    cases (Step.collect_end (elementStep_closed blank first rest)).symm.trans refused
  | _, _, _, .item opens spelled others, tame, rest, fault, refused => by
    obtain ⟨here, behind⟩ := List.forall_mem_cons.mp tame
    have ends := others.endsNumeral rest
    rw [List.append_assoc, List.append_assoc, Step.collect_eq, elementStep_run item opens spelled] at refused
    rcases Outcome.andThen_eq_error.mp refused with failed | ⟨taken, left, ok, failed⟩
    · exact overflows.run spelled here ends (Outcome.andThen_ok_eq_error.mp failed)
    · obtain ⟨a, between, read, equal⟩ := Outcome.andThen_eq_ok.mp ok
      obtain ⟨rfl, rfl⟩ := Prod.mk.inj (Except.ok.inj equal)
      obtain rfl := (@Views.rest_eq _ _ _ _ _ _ _ views spelled [] blank_nil ends _ _ read).2
      exact elements_overflow views overflows others behind rest (Outcome.andThen_ok_eq_error.mp failed)

theorem members_overflow {item : Reader α} {view : Tree → Option α} (views : Views item depth view)
    (overflows : Overflows item depth view) :
    {first : Bool} → {text : List Char} → {members : List (String × Tree)} →
      SpellsMembers depth first text members → (∀ member ∈ members, (view member.2.tamed).isSome = true) →
        ∀ rest {fault}, (memberStep item).collect first (text ++ rest) = .error fault →
          fault.cause = .numberOutOfRange
  | first, _, _, .close blank, _, rest, fault, refused => by
    rw [List.append_assoc] at refused
    cases (Step.collect_end (memberStep_closed blank first rest)).symm.trans refused
  | _, _, _, .member opens chars blank inner spelled others, tame, rest, fault, refused => by
    obtain ⟨here, behind⟩ := List.forall_mem_cons.mp tame
    have ends := others.endsNumeral rest
    simp only [List.append_assoc, List.cons_append] at refused
    rw [Step.collect_eq, memberStep_run item opens chars blank] at refused
    rcases Outcome.andThen_eq_error.mp refused with failed | ⟨taken, left, ok, failed⟩
    · exact overflows.only spelled here inner ends (Outcome.andThen_ok_eq_error.mp failed)
    · obtain ⟨a, between, read, equal⟩ := Outcome.andThen_eq_ok.mp ok
      obtain ⟨rfl, rfl⟩ := Prod.mk.inj (Except.ok.inj equal)
      obtain rfl := (views.rest_eq spelled inner ends read).2
      exact members_overflow views overflows others behind rest (Outcome.andThen_ok_eq_error.mp failed)

theorem list_overflows {expected : String} {item : Nat → Reader α} {view : Tree → Option α}
    (views : ∀ depth, Views (item depth) depth view) (overflows : ∀ depth, Overflows (item depth) depth view)
    (depth : Nat) : Overflows (list expected item depth) depth (Tree.list? view) := by
  refine Overflows.start rfl ?_
  intro c tail rest tree fault spelled tame ends refused
  cases spelled with
  | @array depth _ items spelled =>
    have each : ∀ tree ∈ items, (view tree.tamed).isSome = true := by
      rw [Tree.tamed, Tree.list?, mapM_isSome_iff, Tree.tamedItems_eq_map] at tame
      exact List.forall_mem_map.mp tame
    exact elements_overflow (views depth) (overflows depth) spelled each rest refused
  | positive _ | negative _ =>
    rw [Tree.tamed] at tame
    split at tame <;> contradiction
  | _ => contradiction

end Overflows

mutual

/-- Every tamed tree has a value. -/
theorem value?_tamed : (tree : Tree) → tree.tamed.value?.isSome = true
  | .null => rfl
  | .bool _ => rfl
  | .string _ => rfl
  | .number negative body => by
    rw [Tree.tamed]
    split
    · next fits => rwa [Tree.value?, Option.isSome_map]
    · rw [value?_literal (by decide)]
      rfl
  | .array items => by
    rw [Tree.tamed, Tree.value?, Option.isSome_map, Tree.values?_eq_mapM, mapM_isSome_iff]
    exact value?_tamedItems items
  | .object members => by
    rw [Tree.tamed, value?_object_isSome]
    exact value?_tamedMembers members

theorem value?_tamedItems : (items : List Tree) → ∀ item ∈ Tree.tamedItems items, item.value?.isSome = true
  | [] => nofun
  | item :: rest => List.forall_mem_cons.mpr ⟨value?_tamed item, value?_tamedItems rest⟩

theorem value?_tamedMembers : (members : List (String × Tree)) →
    ∀ member ∈ Tree.tamedMembers members, member.2.value?.isSome = true
  | [] => nofun
  | (_, member) :: rest => List.forall_mem_cons.mpr ⟨value?_tamed member, value?_tamedMembers rest⟩

end

section Values

variable {depth : Nat} {rest tail : List Char} {c : Char} {tree : Tree} {fault : Fault}

/-- A text of a value is refused for nothing but a number out of range. -/
theorem valueFrom_overflows {nested? : Option (Reader Value)}
    (nested : ∀ inner, depth = inner + 1 →
      ∃ item, nested? = some item ∧ Views item inner Tree.value? ∧ Overflows item inner Tree.value?)
    (spelled : Spells depth (c :: tail) tree) (ends : EndsNumeral rest)
    (refused : valueFrom nested? c (tail ++ rest) = .error fault) : fault.cause = .numberOutOfRange := by
  have numeral {negative : Bool} {body : List Char} (number : SpellsNumber body)
      (refused : ((numeralBody negative (body ++ rest)).andThen fun number left =>
        .ok (number.value, left)) = .error fault) : fault.cause = .numberOutOfRange := by
    have verdict := number.verdict negative ends
    rw [Outcome.andThen_ok_eq_error.mp refused] at verdict
    exact verdict.cause
  cases spelled with
  | null | yes | no => contradiction
  | positive number =>
    rw [valueFrom_digit nested? number.isDigit, ← List.cons_append] at refused
    exact numeral number refused
  | negative number => exact numeral number refused
  | string chars =>
    change ((stringBody.run (tail ++ rest)).andThen _) = _ at refused
    rw [chars.reads] at refused
    contradiction
  | array items =>
    obtain ⟨item, rfl, views, overflows⟩ := nested _ rfl
    change (((elementStep item).collect true (tail ++ rest)).andThen _) = _ at refused
    exact elements_overflow views overflows items (fun tree _ => value?_tamed tree) rest
      (Outcome.andThen_ok_eq_error.mp refused)
  | object members =>
    obtain ⟨item, rfl, views, overflows⟩ := nested _ rfl
    change (((memberStep item).collect true (tail ++ rest)).andThen _) = _ at refused
    exact members_overflow views overflows members (fun member _ => value?_tamed member.2) rest
      (Outcome.andThen_ok_eq_error.mp refused)

theorem value_overflows (depth : Nat) : Overflows (value depth) depth Tree.value? := by
  induction depth with
  | zero =>
    refine Overflows.start rfl fun spelled _ => valueFrom_overflows ?_ spelled
    rintro inner ⟨⟩
  | succ depth ih =>
    refine Overflows.start rfl fun spelled _ => valueFrom_overflows ?_ spelled
    rintro inner ⟨⟩
    exact ⟨value depth, rfl, value_views depth, ih⟩

theorem dict_overflows (expected : String) (depth : Nat) :
    Overflows (dict expected depth) depth Tree.dict? := by
  refine Overflows.start rfl ?_
  intro c tail rest tree fault spelled tame ends refused
  cases spelled with
  | @object depth _ members spelled =>
    change (((memberStep (value depth)).collect true (tail ++ rest)).andThen _) = _ at refused
    exact members_overflow (value_views depth) (value_overflows depth) spelled
        (fun member _ => value?_tamed member.2) rest (Outcome.andThen_ok_eq_error.mp refused)
  | positive _ | negative _ =>
    rw [Tree.tamed] at tame
    split at tame <;> contradiction
  | _ => contradiction

end Values

/-! ## Integers that are read -/

section Integers

variable {n : Int} {space rest : List Char}

theorem read_integer (small : IsInt64 n) (depth : Nat) (blank : Blank space) (ends : EndsNumeral rest) :
    (value depth).run (space ++ (Text.integer n ++ rest)) = .ok (.int (Int64.ofInt n), rest) := by
  have seen := (value_views depth).sees (spells_integer n) blank ends
  rw [value?_literal small] at seen
  cases read : (value depth).run (space ++ (Text.integer n ++ rest)) with
  | ok pair =>
    rw [read] at seen
    exact congrArg Except.ok (Option.some.inj seen)
  | error fault =>
    rw [read] at seen
    contradiction

theorem read_integer_of_large (large : ¬ IsInt64 n) (depth : Nat) (blank : Blank space)
    (ends : EndsNumeral rest) :
    (∃ x, (value depth).run (space ++ (Text.integer n ++ rest)) = .ok (.float x, rest)) ∨
      ∃ left, (value depth).run (space ++ (Text.integer n ++ rest)) = .error ⟨.numberOutOfRange, left⟩ := by
  have spelled := @spells_integer depth n
  cases read : (value depth).run (space ++ (Text.integer n ++ rest)) with
  | ok pair =>
    obtain ⟨v, left⟩ := pair
    obtain ⟨seen, rfl⟩ := (value_views depth).rest_eq spelled blank ends read
    obtain ⟨x, rfl⟩ := float_of_value?_literal large seen
    exact .inl ⟨x, rfl⟩
  | error fault =>
    have only := (value_overflows depth).only spelled (value?_tamed _) blank ends read
    obtain ⟨cause, left⟩ := fault
    obtain rfl : cause = _ := only
    exact .inr ⟨left, rfl⟩

end Integers

/-! ## Records -/

namespace Schema

variable {schema : Schema} {rules : List Rule} {outline : schema.Outline rules}

/-- The step of a record at a field that has not been seen. -/
theorem entryStep_run {depth : Nat} {seen : List schema.Field} {before key space : List Char} {name : String}
    {field : schema.Field} (opens : Opens seen.isEmpty before) (chars : SpellsChars key name.toList)
    (blank : Blank space) (named : schema.field? name = some field) (fresh : field ∉ seen) (rest : List Char) :
    (schema.entryStep depth).run seen (before ++ '"' :: (key ++ (space ++ ':' :: rest))) =
      ((schema.read field depth).run rest).andThen fun content left =>
        .ok (some (⟨field, content⟩, field :: seen), left) := by
  simp only [entryStep, nextName_opened opens chars, Outcome.andThen, named, behindColon_spelled blank, if_neg fresh]

namespace Outline

variable (each : ∀ field depth, Overflows (schema.read field depth) depth (outline.view field))

include each

theorem entryStep_overflow {depth : Nat} : {first : Bool} → {text : List Char} →
    {members : List (String × Tree)} → SpellsMembers depth first text members →
      ∀ (seen : List schema.Field), seen.isEmpty = first →
        (outline.gather seen (Tree.tamedMembers members)).isSome = true → ∀ rest {fault},
          (schema.entryStep depth).collect seen (text ++ rest) = .error fault → fault.cause = .numberOutOfRange
  | _, _, _, .close blank, seen, _, _, rest, fault, refused => by
    rw [List.append_assoc] at refused
    cases (Step.collect_end (entryStep_closed blank seen rest)).symm.trans refused
  | _, _, _, .member opens chars blank inner spelled others, seen, begins, tame, rest, fault, refused => by
    subst begins
    obtain ⟨entries, gathered⟩ := Option.isSome_iff_exists.mp tame
    obtain ⟨field, content, more, named, viewed, fresh, behind, -⟩ := gather_cons_eq_some_iff.mp gathered
    have ends := others.endsNumeral rest
    simp only [List.append_assoc, List.cons_append] at refused
    rw [Step.collect_eq, entryStep_run opens chars blank named fresh] at refused
    rcases Outcome.andThen_eq_error.mp refused with failed | ⟨taken, left, ok, failed⟩
    · exact (each field depth).only spelled (Option.isSome_iff_exists.mpr ⟨_, viewed⟩) inner ends
        (Outcome.andThen_ok_eq_error.mp failed)
    · obtain ⟨found, between, read, equal⟩ := Outcome.andThen_eq_ok.mp ok
      obtain ⟨rfl, rfl⟩ := Prod.mk.inj (Except.ok.inj equal)
      obtain rfl := ((outline.views field depth).rest_eq spelled inner ends read).2
      exact entryStep_overflow others _ rfl (Option.isSome_iff_exists.mpr ⟨_, behind⟩) rest
        (Outcome.andThen_ok_eq_error.mp failed)

theorem entries_overflows (expected : String) (depth : Nat) :
    Overflows (schema.entries expected depth) depth outline.entries? := by
  refine Overflows.start rfl ?_
  intro c tail rest tree fault spelled tame ends refused
  cases spelled with
  | object members => exact entryStep_overflow each members [] rfl tame rest refused
  | positive _ | negative _ =>
    rw [Tree.tamed] at tame
    split at tame <;> contradiction
  | _ => contradiction

/-- A record is refused for nothing but a number out of range, if its object keeps to the rules without such
numbers. -/
theorem Builds.overflows {α : Type} {build : List schema.Entry → Except Cause α}
    {recordOf? : (String → Option Tree) → Option α} (wellNamed : schema.WellNamed)
    (builds : outline.Builds build recordOf?) (expected : String) (depth : Nat) :
    Overflows (schema.record expected build depth) depth (Tree.record? rules recordOf?) := by
  constructor
  intro text tree spelled tame space blank rest ends fault refused
  cases tree with
  | object members =>
    rw [Tree.tamed, Tree.record?] at tame
    split at tame
    · next admits =>
      obtain ⟨known, once, typed, complete⟩ := admits
      have gathers := (gather_isSome_iff_rules outline wellNamed _).mpr ⟨known, once, typed⟩
      rcases Outcome.andThen_eq_error.mp refused with failed | ⟨entries, left, read, failed⟩
      · exact (entries_overflows each expected depth).only spelled gathers blank ends failed
      · obtain ⟨gathered, -⟩ := (outline.entries_views expected depth).rest_eq spelled blank ends read
        have whole : (outline.gather [] members).isSome = true := Option.isSome_iff_exists.mpr ⟨_, gathered⟩
        obtain ⟨known, once, typed⟩ := (gather_isSome_iff_rules outline wellNamed members).mp whole
        rw [Tree.keys_tamedMembers] at complete
        have made := builds.isSome_of_admits wellNamed ⟨known, once, typed, complete⟩
        rw [← builds.built (content?_gather wellNamed gathered)] at made
        cases built : build entries with
        | ok record =>
          rw [built] at failed
          contradiction
        | error cause =>
          rw [built] at made
          contradiction
    · contradiction
  | number negative body =>
    rw [Tree.tamed] at tame
    split at tame <;> contradiction
  | _ => contradiction

end Outline

end Schema

end Json

end JobQueue
