import JobQueue.Proofs.Json.View
import Mathlib.Data.List.DropRight

/-! # Written values keep to the grammar

What is written for a value is a text of the tree of that value: its objects have the names they are given in
the order they are given, and a whole number is its decimal digits. A double is the digits of its shortest
decimal, laid out around the point or in front of an exponent, or null if it has none.
-/

namespace JobQueue

namespace Json

/-! ## Digits -/

theorem digits_toDigits (n : Nat) : Digits (Nat.toDigits 10 n) :=
  ⟨Nat.toDigits_ne_nil, fun _ => Text.isDigit_of_mem_toDigits⟩

/-- The digits of a number stand in front of a point as they are. -/
theorem whole_toDigits (n : Nat) : Whole (Nat.toDigits 10 n) where
  toDigits := digits_toDigits n
  alone zero := by
    rcases Nat.eq_zero_or_pos n with rfl | positive
    · rfl
    · exact absurd zero (Text.head?_toDigits positive)

theorem Digits.append {front back : List Char} (digits : Digits front)
    (more : ∀ c ∈ back, c.isDigit = true) : Digits (front ++ back) where
  some := List.append_ne_nil_of_left_ne_nil digits.some back
  all c member := (List.mem_append.mp member).elim (digits.all c) (more c)

theorem isDigit_of_mem_zeros {count : Nat} {c : Char} (member : c ∈ List.replicate count '0') :
    c.isDigit = true := by
  rw [List.eq_of_mem_replicate member]
  rfl

end Json

open Json

/-- A decimal has digits, and they begin with a zero only if the decimal is zero. -/
structure Decimal.Tidy (number : Decimal) : Prop where
  digits : Digits number.digits
  zero : number.digits.head? = some '0' → number.digits = ['0'] ∧ number.position = 1

theorem Decimal.tidy_ofScientific (significand : Nat) (exponent : Int) :
    (ofScientific significand exponent).Tidy := by
  rcases Nat.eq_zero_or_pos significand with rfl | positive
  · have zero : (ofScientific 0 exponent).digits = ['0'] := by
      change (ofScientific 0 0).digits = ['0']
      decide
    refine ⟨?_, fun _ => ⟨zero, rfl⟩⟩
    rw [zero]
    exact digits_toDigits 0
  · have begins : (ofScientific significand exponent).digits =
        if (List.rdropWhile (· == '0') (Nat.toDigits 10 significand)).isEmpty then ['0']
        else List.rdropWhile (· == '0') (Nat.toDigits 10 significand) := rfl
    obtain ⟨dropped, split⟩ := List.rdropWhile_prefix (· == '0') (Nat.toDigits 10 significand)
    have head := Text.head?_toDigits positive
    cases kept : List.rdropWhile (· == '0') (Nat.toDigits 10 significand) with
    | nil =>
      -- only zeros are dropped, and the first digit is none
      obtain ⟨c, rest, digits⟩ := List.exists_cons_of_ne_nil (Nat.toDigits_ne_nil (n := significand) (b := 10))
      have zeros := List.rdropWhile_eq_nil_iff.mp kept c (by rw [digits]; exact List.mem_cons_self)
      rw [digits, List.head?_cons, beq_iff_eq.mp zeros] at head
      exact absurd rfl head
    | cons c rest =>
      rw [kept] at begins split
      have digits : (ofScientific significand exponent).digits = c :: rest := begins
      rw [← split, List.cons_append, List.head?_cons] at head
      refine ⟨⟨?_, ?_⟩, ?_⟩
      · rw [digits]
        exact List.cons_ne_nil c rest
      · intro d member
        rw [digits] at member
        exact Text.isDigit_of_mem_toDigits (split ▸ List.mem_append_left dropped member)
      · intro zero
        rw [digits, List.head?_cons] at zero
        exact absurd zero head

theorem Binary64.tidy_shortest (tie : Tie) (magnitude : Nat) : (shortest tie magnitude).Tidy := by
  obtain ⟨significand, exponent, made⟩ := exists_ofScientific tie magnitude
  rw [made]
  exact Decimal.tidy_ofScientific significand exponent

namespace NumberLayout

variable {layout : NumberLayout} {number : Decimal}

theorem spellsNumber_point (pointZero : layout.pointZero = true) (tidy : number.Tidy) :
    SpellsNumber (layout.point number) := by
  have last : Exponent [] := .none
  unfold point
  simp only [pointZero, if_true]
  split
  · have fraction : Digits (List.replicate (-number.position).toNat '0' ++ number.digits) := by
      refine ⟨List.append_ne_nil_of_right_ne_nil _ tidy.digits.some, fun d member => ?_⟩
      exact (List.mem_append.mp member).elim isDigit_of_mem_zeros (tidy.digits.all d)
    have zero : Whole ['0'] := whole_toDigits 0
    have whole := SpellsNumber.parts zero (.some fraction) last
    rwa [List.append_nil] at whole
  · split
    · next positive short =>
      have whole : Whole (number.digits ++ List.replicate (number.position - number.digits.length).toNat '0') := by
        refine ⟨tidy.digits.append fun _ => isDigit_of_mem_zeros, fun zero => ?_⟩
        rw [List.head?_append_of_ne_nil _ tidy.digits.some] at zero
        obtain ⟨alone, first⟩ := tidy.zero zero
        rw [alone, first]
        rfl
      have zero : Digits ['0'] := digits_toDigits 0
      exact .parts whole (.some zero) last
    · next positive long =>
      obtain ⟨count, position⟩ := Int.eq_ofNat_of_zero_le (Int.le_of_lt (Int.not_le.mp positive))
      rw [position] at positive long ⊢
      have counted : 0 < count ∧ count < number.digits.length := by omega
      rw [Int.toNat_natCast]
      have front : Whole (number.digits.take count) := by
        refine ⟨⟨?_, fun d member => tidy.digits.all d (List.mem_of_mem_take member)⟩, fun zero => ?_⟩
        · rw [ne_eq, List.take_eq_nil_iff, not_or]
          exact ⟨Nat.ne_of_gt counted.1, tidy.digits.some⟩
        · rw [List.head?_take, if_neg (Nat.ne_of_gt counted.1)] at zero
          have single := congrArg List.length (tidy.zero zero).1
          rw [List.length_singleton] at single
          omega
      have back : Digits (number.digits.drop count) := by
        refine ⟨?_, fun d member => tidy.digits.all d (List.mem_of_mem_drop member)⟩
        rw [ne_eq, List.drop_eq_nil_iff]
        omega
      have whole := SpellsNumber.parts front (.some back) last
      rwa [List.append_nil] at whole

theorem spellsNumber_scientific (tidy : number.Tidy) : SpellsNumber (layout.scientific number) := by
  obtain ⟨c, rest, split⟩ := List.exists_cons_of_ne_nil tidy.digits.some
  have first : c.isDigit = true := tidy.digits.all c (split ▸ List.mem_cons_self)
  have whole : Whole [c] := ⟨⟨List.cons_ne_nil c [], by simpa using first⟩, fun zero => by
    rw [List.head?_cons] at zero
    rw [Option.some.inj zero]⟩
  have power (mark : List Char) (signs : mark = [] ∨ mark = ['+'] ∨ mark = ['-']) (n : Nat) :
      Exponent ('e' :: (mark ++ Nat.toDigits 10 n)) := by
    rcases signs with rfl | rfl | rfl
    · exact .plain (.inl rfl) (digits_toDigits n)
    · exact .signed (.inl rfl) (.inl rfl) (digits_toDigits n)
    · exact .signed (.inl rfl) (.inr rfl) (digits_toDigits n)
  have marked : ∀ mark, mark = (if number.position - 1 < 0 then ['-'] else if layout.plus then ['+'] else []) →
      mark = [] ∨ mark = ['+'] ∨ mark = ['-'] := by
    rintro mark rfl
    split
    · exact .inr (.inr rfl)
    · split
      · exact .inr (.inl rfl)
      · exact .inl rfl
  have exponent := power _ (marked _ rfl) (number.position - 1).natAbs
  simp only [scientific, split]
  cases rest with
  | nil => exact .parts whole .none exponent
  | cons d rest =>
    have fraction : Digits (d :: rest) :=
      ⟨List.cons_ne_nil d rest, fun e member => tidy.digits.all e (split ▸ List.mem_cons_of_mem c member)⟩
    exact .parts whole (.some fraction) exponent

end NumberLayout

/-! ## Trees of values -/

namespace Json

/-- The number of an integer in its shortest decimal form. -/
def Tree.literal (n : Int) : Tree := .number (decide (n < 0)) (Nat.toDigits 10 n.natAbs)

/-- The digits of a finite double without its sign. -/
def floatBody (x : Binary64) : List Char :=
  let number := Binary64.shortest NumberLayout.json.tie x.magnitude
  if NumberLayout.json.positional number.position then NumberLayout.json.point number
  else NumberLayout.json.scientific number

namespace Tree

mutual

/-- What the text of a value says. -/
def ofValue : Value → Tree
  | .null => null
  | .bool flag => bool flag
  | .int n => literal n.toInt
  | .float x => if x.isNaN || x.isInfinite then null else number x.negative (floatBody x)
  | .string text => string text
  | .array items => array (ofItems items)
  | .object members => object (ofMembers members)

def ofItems : List Value → List Tree
  | [] => []
  | item :: rest => ofValue item :: ofItems rest

def ofMembers : List (String × Value) → List (String × Tree)
  | [] => []
  | (name, member) :: rest => (name, ofValue member) :: ofMembers rest

end

theorem ofItems_eq_map (items : List Value) : ofItems items = items.map ofValue := by
  induction items with
  | nil => rfl
  | cons item rest ih => rw [ofItems, ih, List.map_cons]

/-- The names of an object are written in the order in which they are given. -/
theorem keys_ofMembers (members : List (String × Value)) :
    Dict.keys (ofMembers members) = Dict.keys members := by
  induction members with
  | nil => rfl
  | cons member rest ih => exact congrArg (member.1 :: ·) ih

end Tree

/-! ## Texts of values -/

theorem spellsChar_escapeChar (c : Char) : SpellsChar (escapeChar c) c := by
  unfold escapeChar
  split
  · next quote => subst quote; exact .letter rfl
  next quote =>
  split
  · next slash => subst slash; exact .letter rfl
  next slash =>
  split
  · next erase => subst erase; exact .letter rfl
  split
  · next feed => subst feed; exact .letter rfl
  split
  · next line => subst line; exact .letter rfl
  split
  · next carriage => subst carriage; exact .letter rfl
  split
  · next tab => subst tab; exact .letter rfl
  split
  · next control =>
    have high : isHighSurrogate c.toNat = false := by simp [isHighSurrogate]; omega
    have low : isLowSurrogate c.toNat = false := by simp [isLowSurrogate]; omega
    have digits := SpellsChar.digits (hexNumber?_control control []) high low
    rwa [Char.ofNat_toNat] at digits
  · next visible => exact .plain quote slash visible

theorem spellsChars_escaped (cs : List Char) : SpellsChars (cs.flatMap escapeChar ++ ['"']) cs := by
  induction cs with
  | nil => exact .close
  | cons c cs ih =>
    rw [List.flatMap_cons, List.append_assoc]
    exact .char (spellsChar_escapeChar c) ih

variable {depth : Nat} {text : List Char}

theorem spells_integer (n : Int) : Spells depth (Text.integer n) (.literal n) := by
  have body : SpellsNumber (Nat.toDigits 10 n.natAbs) := by
    have number := SpellsNumber.parts (whole_toDigits n.natAbs) .none .none
    rwa [List.append_nil, List.append_nil] at number
  unfold Text.integer Tree.literal
  split
  · next negative =>
    rw [decide_eq_true negative]
    exact .negative body
  · next positive =>
    rw [decide_eq_false positive]
    exact .positive body

/-- An integer in its shortest form has one text. -/
theorem spells_literal_iff (n : Int) : Spells depth text (.literal n) ↔ text = Text.integer n := by
  constructor
  · intro spelled
    unfold Tree.literal at spelled
    unfold Text.integer
    split
    · next negative =>
      rw [decide_eq_true negative] at spelled
      cases spelled with
      | negative => rfl
    · next positive =>
      rw [decide_eq_false positive] at spelled
      cases spelled with
      | positive => rfl
  · rintro rfl
    exact spells_integer n

theorem spells_float (x : Binary64) : Spells depth (writeFloat x) (.ofValue (.float x)) := by
  have body : SpellsNumber (floatBody x) := by
    unfold floatBody
    dsimp only
    split
    · exact NumberLayout.spellsNumber_point rfl (Binary64.tidy_shortest _ _)
    · exact NumberLayout.spellsNumber_scientific (Binary64.tidy_shortest _ _)
  have null : Spells depth "null".toList .null := .null
  unfold writeFloat NumberLayout.write
  rw [Tree.ofValue]
  split
  · next nan =>
    rw [nan, Bool.true_or, if_pos rfl]
    exact null
  next finite =>
  split
  · next infinite =>
    rw [infinite, Bool.or_true, if_pos rfl]
    split
    · exact null
    · exact null
  next bounded =>
  rw [Bool.not_eq_true] at finite bounded
  rw [finite, bounded, Bool.or_false, if_neg Bool.false_ne_true, String.toList_ofList]
  split
  · next negative =>
    rw [negative]
    exact .negative body
  · next positive =>
    rw [Bool.not_eq_true] at positive
    rw [positive]
    exact .positive body

theorem opens_lead (first : Bool) : Opens first (lead first) := by
  cases first with
  | true => exact .first blank_nil
  | false => exact .next blank_nil blank_nil

mutual

/-- A value is written as a text of its tree. -/
theorem spells_writeValue : (v : Value) → {depth : Nat} → v.nesting ≤ depth →
    Spells depth (writeValue v) (.ofValue v)
  | .null, _, _ => .null
  | .bool true, _, _ => .yes
  | .bool false, _, _ => .no
  | .int n, _, _ => spells_integer n.toInt
  | .float x, _, _ => spells_float x
  | .string text, _, _ => .string (spellsChars_escaped text.toList)
  | .array _, 0, deep => absurd deep (Nat.not_succ_le_zero _)
  | .array items, _ + 1, deep => .array (spells_writeItems items (Nat.le_of_succ_le_succ deep) true)
  | .object _, 0, deep => absurd deep (Nat.not_succ_le_zero _)
  | .object members, _ + 1, deep => .object (spells_writeMembers members (Nat.le_of_succ_le_succ deep) true)

theorem spells_writeItems : (items : List Value) → {depth : Nat} → Value.nestingItems items ≤ depth →
    (first : Bool) → SpellsItems depth first (joined first (writeItems items) ++ [']']) (Tree.ofItems items)
  | [], _, _, first => by
    rw [writeItems, joined_nil]
    exact .close blank_nil
  | item :: rest, _, deep, first => by
    rw [Value.nestingItems, Nat.max_le] at deep
    rw [writeItems, joined_cons, List.append_assoc, List.append_assoc]
    exact .item (opens_lead first) (spells_writeValue item deep.1) (spells_writeItems rest deep.2 false)

theorem spells_writeMembers : (members : List (String × Value)) → {depth : Nat} →
    Value.nestingMembers members ≤ depth → (first : Bool) →
      SpellsMembers depth first
        (joined first ((writeMembers members).map fun (name, written) => writeMember name written) ++ ['\x7d'])
        (Tree.ofMembers members)
  | [], _, _, first => by
    rw [writeMembers, List.map_nil, joined_nil]
    exact .close blank_nil
  | (name, member) :: rest, _, deep, first => by
    rw [Value.nestingMembers, Nat.max_le] at deep
    have others := spells_writeMembers rest deep.2 false
    have written := SpellsMembers.member (opens_lead first) (spellsChars_escaped name.toList) blank_nil blank_nil
      (spells_writeValue member deep.1) others
    rw [writeMembers, List.map_cons, joined_cons]
    simp only [writeMember, writeString, List.append_assoc, List.cons_append, List.nil_append] at written ⊢
    exact written

end

/-- An object is written as a text that is one object, unless it nests too deep. -/
theorem spellsObject_writeValue {dict : Dict Value} (shallow : (Value.object dict).nesting ≤ depthLimit) :
    SpellsObject (writeValue (.object dict)) (Tree.ofMembers dict) := by
  refine ⟨[], _, [], blank_nil, spells_writeValue (.object dict) shallow, blank_nil, ?_⟩
  rw [List.nil_append, List.append_nil]

end Json

end JobQueue
