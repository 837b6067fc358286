import JobQueue.Proofs.Json.Numeral
import JobQueue.Proofs.Json.StringReader

/-! # How JSON is spelled

A tree is what a JSON text says before anything is made of it: an object has its members in the order of the
text and each name as often as it occurs, a number is its digits. `Spells` is the grammar of the texts of a
tree, with spaces wherever they may stand and every way of writing a character. It nests no deeper than it is
allowed to. The strings of the grammar are those that spell characters, so no half of a surrogate pair stands
alone in them; a number may be too large for a double.
-/

namespace JobQueue.Json

/-- What a JSON text says. -/
inductive Tree where
  | null
  | bool (flag : Bool)
  | number (negative : Bool) (body : List Char)
  | string (text : String)
  | array (items : List Tree)
  | object (members : List (String × Tree))

/-! ## The grammar -/

/-- Spaces, or nothing. -/
def Blank (text : List Char) : Prop := ∀ c ∈ text, isSpace c = true

instance (text : List Char) : Decidable (Blank text) :=
  decidable_of_iff (text.all isSpace = true) List.all_eq_true

theorem blank_nil : Blank [] := nofun

/-- A character as it may be written in a string: as itself, behind a backslash, by the four digits of its
number, or by those of a surrogate pair. -/
inductive SpellsChar : List Char → Char → Prop
  | plain {c : Char} (quote : c ≠ '"') (slash : c ≠ '\\') (visible : ¬ c.toNat < 0x20) : SpellsChar [c] c
  | letter {letter meant : Char} (means : shortEscape? letter = some meant) : SpellsChar ['\\', letter] meant
  | digits {hex : List Char} {n : Nat} (number : hexNumber? hex = some (n, []))
      (high : isHighSurrogate n = false) (low : isLowSurrogate n = false) :
      SpellsChar ('\\' :: 'u' :: hex) (Char.ofNat n)
  | pair {first second : List Char} {high low : Nat} (begins : hexNumber? first = some (high, []))
      (isHigh : isHighSurrogate high = true) (ends : hexNumber? second = some (low, []))
      (isLow : isLowSurrogate low = true) :
      SpellsChar ('\\' :: 'u' :: (first ++ '\\' :: 'u' :: second)) (ofSurrogates high low)

/-- The characters of a string and its closing quote. -/
inductive SpellsChars : List Char → List Char → Prop
  | close : SpellsChars ['"'] []
  | char {text more : List Char} {c : Char} {others : List Char} (one : SpellsChar text c)
      (behind : SpellsChars more others) : SpellsChars (text ++ more) (c :: others)

/-- At least one digit, and nothing else. -/
structure Digits (text : List Char) : Prop where
  some : text ≠ []
  all : ∀ c ∈ text, c.isDigit = true

/-- The digits in front of the point: no zero begins them, unless it is alone. -/
structure Whole (text : List Char) : Prop extends Digits text where
  alone : text.head? = Option.some '0' → text = ['0']

/-- A point and its digits, or nothing. -/
inductive Fraction : List Char → Prop
  | none : Fraction []
  | some {text : List Char} (digits : Digits text) : Fraction ('.' :: text)

/-- An exponent with or without its sign, or nothing. -/
inductive Exponent : List Char → Prop
  | none : Exponent []
  | plain {mark : Char} {text : List Char} (isMark : mark = 'e' ∨ mark = 'E') (digits : Digits text) :
      Exponent (mark :: text)
  | signed {mark sign : Char} {text : List Char} (isMark : mark = 'e' ∨ mark = 'E')
      (isSign : sign = '+' ∨ sign = '-') (digits : Digits text) : Exponent (mark :: sign :: text)

/-- A number without its sign. -/
inductive SpellsNumber : List Char → Prop
  | parts {whole fraction exponent : List Char} (digits : Whole whole) (point : Fraction fraction)
      (power : Exponent exponent) : SpellsNumber (whole ++ (fraction ++ exponent))

/-- What stands in front of an item or a member: spaces, and among them a comma unless it is the first. -/
inductive Opens : Bool → List Char → Prop
  | first {space : List Char} (blank : Blank space) : Opens true space
  | next {space more : List Char} (before : Blank space) (behind : Blank more) :
      Opens false (space ++ ',' :: more)

mutual

/-- The texts of a tree that nests at most so many arrays and objects. -/
inductive Spells : Nat → List Char → Tree → Prop
  | null {depth : Nat} : Spells depth ['n', 'u', 'l', 'l'] .null
  | yes {depth : Nat} : Spells depth ['t', 'r', 'u', 'e'] (.bool true)
  | no {depth : Nat} : Spells depth ['f', 'a', 'l', 's', 'e'] (.bool false)
  | positive {depth : Nat} {body : List Char} (number : SpellsNumber body) :
      Spells depth body (.number false body)
  | negative {depth : Nat} {body : List Char} (number : SpellsNumber body) :
      Spells depth ('-' :: body) (.number true body)
  | string {depth : Nat} {text : List Char} {s : String} (chars : SpellsChars text s.toList) :
      Spells depth ('"' :: text) (.string s)
  | array {depth : Nat} {text : List Char} {items : List Tree} (spelled : SpellsItems depth true text items) :
      Spells (depth + 1) ('[' :: text) (.array items)
  | object {depth : Nat} {text : List Char} {members : List (String × Tree)}
      (spelled : SpellsMembers depth true text members) :
      Spells (depth + 1) ('\x7b' :: text) (.object members)

/-- The items of an array and its closing bracket. -/
inductive SpellsItems : Nat → Bool → List Char → List Tree → Prop
  | close {depth : Nat} {first : Bool} {space : List Char} (blank : Blank space) :
      SpellsItems depth first (space ++ [']']) []
  | item {depth : Nat} {first : Bool} {before text more : List Char} {tree : Tree} {trees : List Tree}
      (opens : Opens first before) (spelled : Spells depth text tree)
      (others : SpellsItems depth false more trees) :
      SpellsItems depth first (before ++ (text ++ more)) (tree :: trees)

/-- The members of an object and its closing brace. -/
inductive SpellsMembers : Nat → Bool → List Char → List (String × Tree) → Prop
  | close {depth : Nat} {first : Bool} {space : List Char} (blank : Blank space) :
      SpellsMembers depth first (space ++ ['\x7d']) []
  | member {depth : Nat} {first : Bool} {before key space gap text more : List Char} {name : String}
      {tree : Tree} {members : List (String × Tree)} (opens : Opens first before)
      (chars : SpellsChars key name.toList) (blank : Blank space) (inner : Blank gap)
      (spelled : Spells depth text tree) (others : SpellsMembers depth false more members) :
      SpellsMembers depth first (before ++ '"' :: (key ++ (space ++ ':' :: (gap ++ (text ++ more)))))
        ((name, tree) :: members)

end

/-- The texts that are one object with some members, within the limit of depth. -/
def SpellsObject (text : List Char) (members : List (String × Tree)) : Prop :=
  ∃ before inner behind, Blank before ∧ Spells depthLimit inner (.object members) ∧ Blank behind ∧
    text = before ++ (inner ++ behind)

/-! ## Spaces -/

theorem skipSpace_blank {space : List Char} (blank : Blank space) (text : List Char) :
    skipSpace (space ++ text) = skipSpace text := List.dropWhile_append_of_pos blank

theorem skipSpace_blank_cons {space : List Char} (blank : Blank space) {c : Char}
    (visible : isSpace c = false)
    (text : List Char) : skipSpace (space ++ c :: text) = c :: text := by
  rw [skipSpace_blank blank, skipSpace, List.dropWhile_cons, visible]
  rfl

theorem skipSpace_eq_nil {space : List Char} (blank : Blank space) : skipSpace space = [] := by
  have none := skipSpace_blank blank []
  rwa [List.append_nil] at none

/-- What stands in front of an item or a member ends no numeral but the one before it. -/
theorem endsNumeral_blank {space rest : List Char} (blank : Blank space) (ends : EndsNumeral rest) :
    EndsNumeral (space ++ rest) := by
  cases space with
  | nil => exact ends
  | cons c space =>
    have isSpace : isSpace c = true := blank c (List.mem_cons_self ..)
    simp only [Json.isSpace, Bool.or_eq_true, decide_eq_true_eq] at isSpace
    rcases isSpace with ((rfl | rfl) | rfl) | rfl <;> rfl

theorem endsNumeral_opens {before : List Char} (opens : Opens false before) (rest : List Char) :
    EndsNumeral (before ++ rest) := by
  cases opens with
  | next blank _ =>
    rw [List.append_assoc]
    exact endsNumeral_blank blank rfl

theorem SpellsItems.endsNumeral {depth : Nat} {text : List Char} {items : List Tree}
    (spelled : SpellsItems depth false text items) (rest : List Char) : EndsNumeral (text ++ rest) := by
  cases spelled with
  | close blank =>
    rw [List.append_assoc]
    exact endsNumeral_blank blank rfl
  | item opens _ _ =>
    rw [List.append_assoc]
    exact endsNumeral_opens opens _

theorem SpellsMembers.endsNumeral {depth : Nat} {text : List Char} {members : List (String × Tree)}
    (spelled : SpellsMembers depth false text members) (rest : List Char) : EndsNumeral (text ++ rest) := by
  cases spelled with
  | close blank =>
    rw [List.append_assoc]
    exact endsNumeral_blank blank rfl
  | member opens _ _ _ _ _ =>
    rw [List.append_assoc]
    exact endsNumeral_opens opens _

/-! ## Strings -/

theorem hexNumber?_append {hex : List Char} {n : Nat} (number : hexNumber? hex = some (n, []))
    (rest : List Char) : hexNumber? (hex ++ rest) = some (n, rest) := by
  unfold hexNumber? at number
  split at number
  · next a b c d left =>
    simp only [bind, pure, Option.bind_eq_some_iff, Option.some.injEq, Prod.mk.injEq] at number
    obtain ⟨first, isFirst, second, isSecond, third, isThird, fourth, isFourth, rfl, rfl⟩ := number
    simp [hexNumber?, isFirst, isSecond, isThird, isFourth]
  · cases number

theorem length_of_hexNumber? {hex : List Char} {n : Nat} (number : hexNumber? hex = some (n, [])) :
    hex.length = 4 := by
  unfold hexNumber? at number
  split at number
  · simp only [bind, pure, Option.bind_eq_some_iff, Option.some.injEq, Prod.mk.injEq] at number
    obtain ⟨_, _, _, _, _, _, _, _, _, rfl⟩ := number
    rfl
  · cases number

/-- No character is without bytes. -/
theorem length_le_bytes (text : List Char) : text.length ≤ bytes text := by
  have grows (size : Nat) : size + text.length ≤ text.foldl (fun size c => size + c.utf8Size) size := by
    induction text generalizing size with
    | nil => exact Nat.le_refl _
    | cons c text ih =>
      have one := c.utf8Size_pos
      have more := ih (size + c.utf8Size)
      rw [List.length_cons, List.foldl_cons]
      omega
  have whole := grows 0
  rwa [Nat.zero_add] at whole

theorem hexFour_spelled {hex : List Char} {n : Nat} (number : hexNumber? hex = some (n, []))
    (rest : List Char) : hexFour (hex ++ rest) = .ok (n, rest) := by
  have four := length_of_hexNumber? number
  have enough : ¬ bytes ((hex ++ rest).take 4) < 4 := by
    have least := length_le_bytes ((hex ++ rest).take 4)
    rw [List.length_take, List.length_append, four] at least
    omega
  rw [hexFour, if_neg enough, hexNumber?_append number]

/-- A character is read, however it is written. -/
theorem stringStep_spelled {text : List Char} {c : Char} (spelled : SpellsChar text c) (rest : List Char) :
    stringStep.run () (text ++ rest) = .ok (some (c, ()), rest) := by
  cases spelled with
  | plain quote slash visible =>
    simp only [stringStep, List.cons_append, List.nil_append]
    rw [if_neg quote, if_neg slash, if_neg visible]
  | @letter letter meant means =>
    have noDigits : letter ≠ 'u' := by
      rintro rfl
      cases means
    have escape : escapeSequence (letter :: rest) = .ok (c, rest) := by
      simp only [escapeSequence, means]
      rw [if_neg noDigits]
    simp only [stringStep, List.cons_append, List.nil_append, escape]
    rfl
  | @digits hex n number high low =>
    have escape : escapeSequence ('u' :: (hex ++ rest)) = .ok (Char.ofNat n, rest) := by
      simp only [escapeSequence, unicodeEscape, hexFour_spelled number, Outcome.andThen, high, low]
      rfl
    simp only [stringStep, List.cons_append, escape]
    rfl
  | @pair first second high low begins isHigh ends isLow =>
    have notLow : isLowSurrogate high = false := by
      simp only [isHighSurrogate, isLowSurrogate, Bool.and_eq_true, decide_eq_true_eq, Bool.and_eq_false_iff,
        decide_eq_false_iff_not] at isHigh ⊢
      omega
    have half : lowHalf high ('\\' :: 'u' :: (second ++ rest)) = .ok (ofSurrogates high low, rest) := by
      simp only [lowHalf, hexFour_spelled ends, Outcome.andThen, isLow, if_true]
    have escape : escapeSequence ('u' :: (first ++ '\\' :: 'u' :: (second ++ rest))) =
        .ok (ofSurrogates high low, rest) := by
      simp only [escapeSequence, unicodeEscape, hexFour_spelled begins, Outcome.andThen, notLow, isHigh, half]
      rfl
    simp only [stringStep, List.cons_append, List.append_assoc, escape]
    rfl

/-- A string is read up to its closing quote, however its characters are written. -/
theorem SpellsChars.reads {text : List Char} {s : String} (spelled : SpellsChars text s.toList)
    (rest : List Char) : stringBody.run (text ++ rest) = .ok (s, rest) := by
  have chars {text cs : List Char} (spelled : SpellsChars text cs) :
      stringStep.collect () (text ++ rest) = .ok (cs, rest) := by
    induction spelled with
    | close => exact Step.collect_end rfl
    | char one _ ih =>
      rw [List.append_assoc, Step.collect_item (stringStep_spelled one _), ih]
      rfl
  simp only [stringBody, Reader.map, Step.reader, chars spelled, Outcome.andThen, String.ofList_toList]

/-! ## Numbers -/

/-- What is made of a text, if it is not refused. -/
theorem Outcome.toOption_andThen {α β : Type} (first : Outcome α) (next : α → List Char → Outcome β) :
    (first.andThen next).toOption = first.toOption.bind fun pair => (next pair.1 pair.2).toOption := by
  cases first <;> rfl

/-- A numeral is read up to the rest, or refused as out of range. -/
inductive Verdict (rest : List Char) : Option Numeral → Outcome Numeral → Prop
  | read (number : Numeral) : Verdict rest (some number) (.ok (number, rest))
  | tooLarge (left : Nat) : Verdict rest none (.error ⟨.numberOutOfRange, left⟩)

theorem Verdict.toOption {rest : List Char} {number? : Option Numeral} {outcome : Outcome Numeral}
    (verdict : Verdict rest number? outcome) :
    outcome.toOption = number?.map fun number => (number, rest) := by
  cases verdict <;> rfl

theorem Verdict.cause {rest : List Char} {number? : Option Numeral} {fault : Fault}
    (verdict : Verdict rest number? (.error fault)) : fault.cause = .numberOutOfRange := by
  cases verdict
  rfl

theorem Verdict.congr {rest : List Char} {number? : Option Numeral} {outcome other : Outcome Numeral}
    (verdict : Verdict rest number? other) (same : outcome = other) : Verdict rest number? outcome :=
  same ▸ verdict

/-- Whether a part of a numeral is out of range does not depend on what stands behind the numeral. -/
def Decides (read : List Char → Outcome Numeral) (text : List Char) : Prop :=
  ∃ number? : Option Numeral, ∀ rest, EndsNumeral rest → Verdict rest number? (read (text ++ rest))

section Numbers

variable (negative : Bool) (significand : Nat)

theorem finishFloat_verdict (exponent : Int) (rest : List Char) :
    Verdict rest ((floatOf? negative significand exponent).map .float)
      (finishFloat negative significand exponent rest) := by
  unfold finishFloat
  cases floatOf? negative significand exponent with
  | some number => exact .read (.float number)
  | none => exact .tooLarge (bytes rest)

theorem Digits.head {text : List Char} (digits : Digits text) (rest : List Char) :
    ∃ c tail, text = c :: tail ∧ c.isDigit = true ∧ text ++ rest = c :: (tail ++ rest) := by
  obtain ⟨c, tail, rfl⟩ := List.exists_cons_of_ne_nil digits.some
  exact ⟨c, tail, rfl, digits.all c (List.mem_cons_self ..), rfl⟩

/-- The digits of an exponent are taken to the last, or up to one that makes it too large. -/
theorem exponentDigits_digits (begun : Nat) {text : List Char} (digits : ∀ c ∈ text, c.isDigit = true) :
    (∃ size, exponentDigits begun text = (some size, [])) ∨
      ∃ left, exponentDigits begun text = (none, left) ∧ ∀ c ∈ left, c.isDigit = true := by
  induction text generalizing begun with
  | nil => exact .inl ⟨begun, rfl⟩
  | cons c text ih =>
    obtain ⟨digit, others⟩ := List.forall_mem_cons.mp digits
    rw [exponentDigits, if_pos digit]
    by_cases small : begun * 10 + Text.digitValue c < 0x80000000
    · simp only [small, if_true]
      exact ih _ others
    · simp only [small, if_false]
      exact .inr ⟨text, rfl, others⟩

theorem exponentPart_decides (places : Int) (down : Bool) {text : List Char} (digits : Digits text) :
    Decides (exponentPart negative significand places down) text := by
  obtain ⟨c, tail, rfl, digit, -⟩ := digits.head []
  rcases exponentDigits_digits 0 digits.all with ⟨size, taken⟩ | ⟨left, stopped, others⟩
  · refine ⟨(floatOf? negative significand (if down then places - size else places + size)).map .float, ?_⟩
    intro rest ends
    have whole := exponentDigits_append 0 (c :: tail) rest fun _ _ => ends.not_digit
    rw [taken, List.nil_append, List.cons_append] at whole
    rw [List.cons_append, exponentPart, digit, Bool.not_true, if_neg Bool.false_ne_true, whole]
    exact finishFloat_verdict negative significand _ rest
  · have whole (rest : List Char) : exponentDigits 0 (c :: (tail ++ rest)) = (none, left ++ rest) := by
      rw [← List.cons_append, exponentDigits_append 0 (c :: tail) rest (by rw [stopped]; simp), stopped]
    by_cases large : significand ≠ 0 ∧ (!down) = true
    · refine ⟨none, ?_⟩
      intro rest _
      rw [List.cons_append, exponentPart, digit, Bool.not_true, if_neg Bool.false_ne_true, whole]
      simp only [if_pos large]
      exact .tooLarge _
    · refine ⟨some (.float (Binary64.zero negative)), ?_⟩
      intro rest ends
      rw [List.cons_append, exponentPart, digit, Bool.not_true, if_neg Bool.false_ne_true, whole]
      simp only [if_neg large, Text.digitRun_of_isDigit others ends.not_digit]
      exact .read _

theorem afterDigits_decides (places : Int) {text : List Char} (exponent : Exponent text) :
    Decides (afterDigits negative significand places) text := by
  cases exponent with
  | none =>
    refine ⟨(floatOf? negative significand places).map .float, ?_⟩
    intro rest ends
    refine (finishFloat_verdict negative significand places rest).congr ?_
    cases rest with
    | nil => rfl
    | cons c rest =>
      simp only [List.nil_append, afterDigits]
      rw [if_neg ends.not_mark.2]
  | @plain mark text isMark digits =>
    obtain ⟨number?, decides⟩ := exponentPart_decides negative significand places false digits
    refine ⟨number?, ?_⟩
    intro rest ends
    refine (decides rest ends).congr ?_
    obtain ⟨c, tail, rfl, digit, -⟩ := digits.head rest
    simp only [List.cons_append, afterDigits]
    rw [if_pos isMark]
    split
    · next sign => cases sign; contradiction
    · next sign => cases sign; contradiction
    · rfl
  | @signed mark sign text isMark isSign digits =>
    obtain ⟨number?, decides⟩ := exponentPart_decides negative significand places (sign = '-') digits
    refine ⟨number?, ?_⟩
    intro rest ends
    refine (decides rest ends).congr ?_
    simp only [List.cons_append, afterDigits]
    rw [if_pos isMark]
    rcases isSign with rfl | rfl <;> rfl

theorem fractionPart_decides (dropped : Nat) {digits exponent : List Char} (some : Digits digits)
    (power : Exponent exponent) :
    Decides (fractionPart negative significand dropped) (digits ++ exponent) := by
  obtain ⟨number?, decides⟩ := afterDigits_decides negative (keepDigits significand digits).1
    (dropped - (digits.length - (keepDigits significand digits).2.length : Nat)) power
  refine ⟨number?, ?_⟩
  intro rest ends
  have stop : (exponent ++ rest).head?.any Char.isDigit = false := by
    cases power with
    | none => exact ends.not_digit
    | plain isMark _ => rcases isMark with rfl | rfl <;> rfl
    | signed isMark _ _ => rcases isMark with rfl | rfl <;> rfl
  have filled : ¬ digits.isEmpty = true := by
    rw [List.isEmpty_iff]
    exact some.some
  refine (decides rest ends).congr ?_
  rw [fractionPart, List.append_assoc, Text.digitRun_of_isDigit some.all stop]
  simp only [if_neg filled]

theorem behindDigits_decides (kept dropped : Nat) {fraction exponent : List Char} (point : Fraction fraction)
    (power : Exponent exponent) : Decides (behindDigits negative kept dropped) (fraction ++ exponent) := by
  cases point with
  | some digits =>
    obtain ⟨number?, decides⟩ := fractionPart_decides negative kept dropped digits power
    exact ⟨number?, decides⟩
  | none =>
    rw [List.nil_append]
    obtain ⟨number?, decides⟩ := afterDigits_decides negative kept dropped power
    have marked {mark : Char} (isMark : mark = 'e' ∨ mark = 'E') (text : List Char) :
        behindDigits negative kept dropped (mark :: text) =
          afterDigits negative kept dropped (mark :: text) := by
      rcases isMark with rfl | rfl <;> simp [behindDigits]
    cases power with
    | plain isMark digits =>
      refine ⟨number?, ?_⟩
      intro rest ends
      refine (decides rest ends).congr ?_
      rw [List.cons_append, marked isMark]
    | signed isMark isSign digits =>
      refine ⟨number?, ?_⟩
      intro rest ends
      refine (decides rest ends).congr ?_
      rw [List.cons_append, marked isMark]
    | none =>
      by_cases all : dropped = 0
      · refine ⟨Option.some (wholeNumeral negative kept), ?_⟩
        intro rest ends
        cases rest with
        | nil =>
          rw [List.nil_append, behindDigits, if_pos all]
          exact .read _
        | cons c rest =>
          obtain ⟨point, mark⟩ := ends.not_mark
          rw [List.nil_append, behindDigits, if_neg point, if_pos ⟨all, not_or.mp mark⟩]
          exact .read _
      · refine ⟨number?, ?_⟩
        intro rest ends
        refine (decides rest ends).congr ?_
        cases rest with
        | nil => rw [List.nil_append, behindDigits, if_neg all]
        | cons c rest =>
          rw [List.nil_append, behindDigits, if_neg ends.not_mark.1, if_neg fun whole => all whole.1]

end Numbers

/-- A number is read to its end or refused as too large. -/
theorem SpellsNumber.decides {body : List Char} (spelled : SpellsNumber body) (negative : Bool) :
    Decides (numeralBody negative) body := by
  cases spelled with
  | @parts whole fraction exponent digits point power =>
    obtain ⟨number?, decides⟩ := behindDigits_decides negative (keepDigits 0 whole).1
      (keepDigits 0 whole).2.length point power
    refine ⟨number?, ?_⟩
    intro rest ends
    have stop : ((fraction ++ exponent) ++ rest).head?.any Char.isDigit = false := by
      cases point with
      | some _ => rfl
      | none =>
        cases power with
        | none => exact ends.not_digit
        | plain isMark _ => rcases isMark with rfl | rfl <;> rfl
        | signed isMark _ _ => rcases isMark with rfl | rfl <;> rfl
    refine (decides rest ends).congr ?_
    rw [List.append_assoc]
    obtain ⟨c, tail, rfl, digit, opened⟩ := digits.head ((fraction ++ exponent) ++ rest)
    have single : ¬ (c = '0' ∧ (tail ++ ((fraction ++ exponent) ++ rest)).head?.any Char.isDigit = true) := by
      rintro ⟨rfl, another⟩
      cases digits.alone rfl
      rw [List.nil_append, stop] at another
      contradiction
    have run := Text.digitRun_of_isDigit digits.all stop
    rw [opened] at run ⊢
    rw [numeralBody, digit, Bool.not_true, if_neg Bool.false_ne_true, if_neg single, run]

end JobQueue.Json
