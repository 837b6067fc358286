import JobQueue.Json.ValueReader
import JobQueue.Proofs.Text.Digits

/-! # Numerals and what follows them

A numeral ends where no character continues it. Reading it is therefore not changed by more text behind
what it leaves, and if it leaves nothing, by more text that does not begin with such a character. The
decimal text of a number of 64 bits reads as that number.
-/

namespace JobQueue.Json

/-- The characters that may go on with a numeral. -/
def continuesNumeral (c : Char) : Bool := c.isDigit || c = '.' || c = 'e' || c = 'E'

/-- A text that does not go on with a numeral before it. -/
def EndsNumeral (text : List Char) : Prop := text.head?.any continuesNumeral = false

theorem EndsNumeral.not_digit {text : List Char} (ends : EndsNumeral text) :
    text.head?.any Char.isDigit = false := by
  cases text with
  | nil => rfl
  | cons c text =>
    simp only [EndsNumeral, continuesNumeral, List.head?_cons, Option.any_some,
      Bool.or_eq_false_iff] at ends ⊢
    exact ends.1.1.1

theorem EndsNumeral.not_mark {c : Char} {text : List Char} (ends : EndsNumeral (c :: text)) :
    c ≠ '.' ∧ ¬ (c = 'e' ∨ c = 'E') := by
  simp only [EndsNumeral, continuesNumeral, List.head?_cons, Option.any_some, Bool.or_eq_false_iff,
    decide_eq_false_iff_not] at ends
  obtain ⟨⟨⟨_, point⟩, small⟩, great⟩ := ends
  exact ⟨point, fun mark => mark.elim small great⟩

/-- A double that has been read to its end leaves what stands behind it. -/
theorem finishFloat_eq_ok {negative : Bool} {significand : Nat} {exponent : Int} {text rest : List Char}
    {n : Numeral} (read : finishFloat negative significand exponent text = .ok (n, rest)) :
    rest = text ∧ ∀ other, finishFloat negative significand exponent other = .ok (n, other) := by
  unfold finishFloat at read ⊢
  split at read
  · next number found =>
    obtain ⟨rfl, rfl⟩ := Prod.mk.inj (Except.ok.inj read)
    exact ⟨rfl, fun _ => rfl⟩
  · contradiction

theorem exponentDigits_append (begun : Nat) (text more : List Char)
    (stop : (exponentDigits begun text).1.isSome → (exponentDigits begun text).2 = [] →
      more.head?.any Char.isDigit = false) :
    exponentDigits begun (text ++ more) =
      ((exponentDigits begun text).1, (exponentDigits begun text).2 ++ more) := by
  fun_induction exponentDigits begun text with
  | case1 begun =>
    cases more with
    | nil => rfl
    | cons c more =>
      have other : ¬ c.isDigit = true := by simpa using stop rfl rfl
      rw [List.nil_append, exponentDigits, if_neg other]
  | case2 begun c rest digit next small ih =>
    rw [List.cons_append, exponentDigits, if_pos digit]
    exact (if_pos small).trans (ih stop)
  | case3 begun c rest digit next large =>
    rw [List.cons_append, exponentDigits, if_pos digit]
    exact if_neg large
  | case4 begun c rest other =>
    rw [List.cons_append, exponentDigits, if_neg other]

theorem exponentPart_append {negative down : Bool} {significand : Nat} {places : Int}
    {text rest : List Char} {n : Numeral} (more : List Char)
    (read : exponentPart negative significand places down text = .ok (n, rest))
    (stop : rest = [] → more.head?.any Char.isDigit = false) :
    exponentPart negative significand places down (text ++ more) = .ok (n, rest ++ more) := by
  cases text with
  | nil => contradiction
  | cons c text =>
    rw [List.cons_append]
    simp only [exponentPart] at read ⊢
    split at read
    · contradiction
    · next digit =>
      rw [if_neg digit]
      have longer := exponentDigits_append 0 (c :: text) more
      rw [List.cons_append] at longer
      cases scanned : exponentDigits 0 (c :: text) with
      | mk size? left =>
        rw [scanned] at read longer
        cases size? with
        | some size =>
          obtain ⟨rfl, always⟩ := finishFloat_eq_ok read
          rw [longer fun _ => stop]
          exact always _
        | none =>
          rw [longer fun impossible => by cases impossible]
          simp only at read ⊢
          split at read
          · contradiction
          · next small =>
            obtain ⟨rfl, rfl⟩ := Prod.mk.inj (Except.ok.inj read)
            rw [if_neg small, Text.digitRun_append_right _ more stop]

theorem afterDigits_append {negative : Bool} {significand : Nat} {places : Int}
    {text rest : List Char} {n : Numeral} (more : List Char)
    (read : afterDigits negative significand places text = .ok (n, rest))
    (stop : rest = [] → EndsNumeral more) :
    afterDigits negative significand places (text ++ more) = .ok (n, rest ++ more) := by
  cases text with
  | nil =>
    obtain ⟨rfl, always⟩ := finishFloat_eq_ok read
    cases more with
    | nil => exact always []
    | cons mark more =>
      simp only [List.nil_append, afterDigits]
      rw [if_neg (stop rfl).not_mark.2]
      exact always _
  | cons mark text =>
    rw [List.cons_append]
    simp only [afterDigits] at read ⊢
    split at read
    · next isMark =>
      rw [if_pos isMark]
      cases text with
      | nil => contradiction
      | cons sign text =>
        rw [List.cons_append]
        have digits : rest = [] → more.head?.any Char.isDigit = false := fun none => (stop none).not_digit
        split at read
        · next plus =>
          cases plus
          exact exponentPart_append more read digits
        · next minus =>
          cases minus
          exact exponentPart_append more read digits
        · next plus minus =>
          split
          · next equal => cases equal; exact absurd rfl (plus _)
          · next equal => cases equal; exact absurd rfl (minus _)
          · exact exponentPart_append more read digits
    · next other =>
      obtain ⟨rfl, always⟩ := finishFloat_eq_ok read
      rw [if_neg other]
      exact always _

theorem fractionPart_append {negative : Bool} {significand dropped : Nat} {text rest : List Char}
    {n : Numeral} (more : List Char)
    (read : fractionPart negative significand dropped text = .ok (n, rest))
    (stop : rest = [] → EndsNumeral more) :
    fractionPart negative significand dropped (text ++ more) = .ok (n, rest ++ more) := by
  simp only [fractionPart] at read ⊢
  split at read
  · contradiction
  · next some =>
    -- what is left behind the digits is no longer than what was left behind the numeral
    have digits := Text.digitRun_append_right text more fun none => by
      rw [none] at read
      exact (stop (List.eq_nil_of_length_eq_zero (Nat.le_zero.mp (afterDigits_length_le read)))).not_digit
    rw [digits, if_neg some]
    exact afterDigits_append more read stop

theorem behindDigits_append {negative : Bool} {kept dropped : Nat} {text rest : List Char}
    {n : Numeral} (more : List Char) (read : behindDigits negative kept dropped text = .ok (n, rest))
    (stop : rest = [] → EndsNumeral more) :
    behindDigits negative kept dropped (text ++ more) = .ok (n, rest ++ more) := by
  cases text with
  | nil =>
    have none : rest = [] :=
      List.eq_nil_of_length_eq_zero (Nat.le_zero.mp (behindDigits_length_le read))
    subst none
    cases more with
    | nil => exact read
    | cons c more =>
      obtain ⟨point, mark⟩ := (stop rfl).not_mark
      simp only [List.nil_append, behindDigits] at read ⊢
      rw [if_neg point]
      split at read
      · next all =>
        rw [if_pos ⟨all, not_or.mp mark⟩, (Prod.mk.inj (Except.ok.inj read)).1]
      · next some =>
        rw [if_neg fun all => some all.1]
        exact afterDigits_append (c :: more) read stop
  | cons c text =>
    rw [List.cons_append]
    simp only [behindDigits] at read ⊢
    split at read
    · next point =>
      rw [if_pos point]
      exact fractionPart_append more read stop
    · next point =>
      rw [if_neg point]
      split at read
      · next all =>
        obtain ⟨rfl, rfl⟩ := Prod.mk.inj (Except.ok.inj read)
        rw [if_pos all]
        rfl
      · next some =>
        rw [if_neg some]
        exact afterDigits_append more read stop

/-- Reading a numeral is not changed by what follows it. -/
theorem numeralBody_append {negative : Bool} {text rest : List Char} {n : Numeral} (more : List Char)
    (read : numeralBody negative text = .ok (n, rest)) (stop : rest = [] → EndsNumeral more) :
    numeralBody negative (text ++ more) = .ok (n, rest ++ more) := by
  cases text with
  | nil => contradiction
  | cons c text =>
    rw [List.cons_append]
    simp only [numeralBody] at read ⊢
    split at read
    · contradiction
    · next digit =>
      rw [if_neg digit]
      split at read
      · contradiction
      · next single =>
        have digits := Text.digitRun_append_right (c :: text) more fun none => by
          rw [none] at read
          have empty := List.eq_nil_of_length_eq_zero (Nat.le_zero.mp (behindDigits_length_le read))
          exact (stop empty).not_digit
        have stillSingle : ¬ (c = '0' ∧ (text ++ more).head?.any Char.isDigit = true) := by
          rintro ⟨rfl, another⟩
          cases text with
          | nil =>
            have none : rest = [] := List.eq_nil_of_length_eq_zero
              (Nat.le_zero.mp (behindDigits_length_le read))
            rw [List.nil_append, (stop none).not_digit] at another
            contradiction
          | cons next text => exact single ⟨rfl, another⟩
        rw [if_neg stillSingle, ← List.cons_append, digits]
        exact behindDigits_append more read stop

/-! ## Whole numbers -/

/-- Digits that spell a number below `2 ^ 64` are all kept. -/
theorem keepDigits_eq {begun : Nat} {digits : List Char}
    (fits : Text.numberFrom begun digits < UInt64.size) :
    keepDigits begun digits = (Text.numberFrom begun digits, []) := by
  induction digits generalizing begun with
  | nil => rfl
  | cons digit rest ih =>
    have small := Nat.lt_of_le_of_lt (Text.le_numberFrom (begun * 10 + Text.digitValue digit) rest) fits
    rw [keepDigits]
    exact (if_pos small).trans (ih fits)

/-- Digits are all kept only if they spell a number below `2 ^ 64`. -/
theorem numberFrom_lt_of_keepDigits {begun : Nat} {digits : List Char} (small : begun < UInt64.size)
    (kept : (keepDigits begun digits).2 = []) : Text.numberFrom begun digits < UInt64.size := by
  induction digits generalizing begun with
  | nil => exact small
  | cons digit rest ih =>
    by_cases fits : begun * 10 + Text.digitValue digit < UInt64.size
    · have more : keepDigits begun (digit :: rest) = keepDigits (begun * 10 + Text.digitValue digit) rest :=
        if_pos fits
      rw [more] at kept
      exact ih fits kept
    · have stops : keepDigits begun (digit :: rest) = (begun, digit :: rest) := if_neg fits
      rw [stops] at kept
      contradiction

/-- The decimal digits of a number are one run, with nothing behind it. -/
theorem numeralBody_digits (negative : Bool) (n : Nat) :
    numeralBody negative (Nat.toDigits 10 n) =
      behindDigits negative (keepDigits 0 (Nat.toDigits 10 n)).1 (keepDigits 0 (Nat.toDigits 10 n)).2.length [] := by
  have run : Text.digitRun (Nat.toDigits 10 n) = (Nat.toDigits 10 n, []) := by
    have digits : ∀ c ∈ Nat.toDigits 10 n, c.isDigit = true := fun _ => Text.isDigit_of_mem_toDigits
    have alone := Text.digitRun_of_isDigit digits (rfl : ([] : List Char).head?.any Char.isDigit = false)
    rwa [List.append_nil] at alone
  cases digits : Nat.toDigits 10 n with
  | nil => exact absurd digits Nat.toDigits_ne_nil
  | cons c rest =>
    have isDigit : ¬ (!c.isDigit) = true := by
      simp [Text.isDigit_of_mem_toDigits (n := n) (by rw [digits]; exact List.mem_cons_self ..)]
    have single : ¬ (c = '0' ∧ rest.head?.any Char.isDigit = true) := by
      rintro ⟨rfl, another⟩
      rcases Nat.eq_zero_or_pos n with rfl | positive
      · cases digits
        contradiction
      · exact Text.head?_toDigits positive (by rw [digits, List.head?_cons])
    rw [digits] at run
    simp only [numeralBody]
    rw [if_neg isDigit, if_neg single, run]

/-- A natural number below `2 ^ 64` is read from its decimal digits. -/
theorem numeralBody_toDigits {negative : Bool} {n : Nat} (fits : n < UInt64.size) {more : List Char}
    (ends : EndsNumeral more) :
    numeralBody negative (Nat.toDigits 10 n ++ more) = .ok (wholeNumeral negative n, more) := by
  have kept : keepDigits 0 (Nat.toDigits 10 n) = (n, []) := by
    have spelled : Text.numberFrom 0 (Nat.toDigits 10 n) = n := Text.number_toDigits n
    have all : keepDigits 0 (Nat.toDigits 10 n) = (Text.numberFrom 0 (Nat.toDigits 10 n), []) :=
      keepDigits_eq (by rwa [spelled])
    rwa [spelled] at all
  have read : numeralBody negative (Nat.toDigits 10 n) = .ok (wholeNumeral negative n, []) := by
    rw [numeralBody_digits, kept]
    rfl
  exact numeralBody_append more read fun _ => ends

/-- A natural number from `2 ^ 64` on is read as a double, if it is in range. -/
theorem numeralBody_toDigits_of_le (negative : Bool) {n : Nat} (large : UInt64.size ≤ n) :
    ∃ significand exponent, numeralBody negative (Nat.toDigits 10 n) =
      finishFloat negative significand exponent [] := by
  have dropped : (keepDigits 0 (Nat.toDigits 10 n)).2.length ≠ 0 := by
    intro all
    have small := numberFrom_lt_of_keepDigits (by decide) (List.eq_nil_of_length_eq_zero all)
    have spelled : Text.numberFrom 0 (Nat.toDigits 10 n) = n := Text.number_toDigits n
    rw [spelled] at small
    exact absurd large (Nat.not_le.mpr small)
  rw [numeralBody_digits]
  exact ⟨_, _, if_neg dropped⟩

end JobQueue.Json
