import JobQueue.Binary64.Read
import JobQueue.Proofs.Text.Digits

/-! # Whole numbers read as doubles

The decimal digits of a whole number have no sign, point or exponent, and read as a double, however many
they are.
-/

namespace JobQueue

theorem Text.signed_of_isDigit {digits : List Char} (all : ∀ c ∈ digits, c.isDigit = true) :
    signed digits = (false, digits) := by
  unfold signed
  split
  · exact absurd (all '-' (List.mem_cons_self ..)) (by decide)
  · exact absurd (all '+' (List.mem_cons_self ..)) (by decide)
  · rfl

namespace Binary64

/-- Digits alone read as the double nearest to their number. -/
theorem decimal?_of_isDigit {digits : List Char} (filled : digits ≠ [])
    (all : ∀ c ∈ digits, c.isDigit = true) (negative : Bool) :
    decimal? negative digits = some (ofDecimal negative (Text.number digits) 0) := by
  have run := Text.digitRun_of_isDigit all (show ([] : List Char).head?.any Char.isDigit = false from rfl)
  rw [List.append_nil] at run
  simp [decimal?, run, exponent?, filled]

/-- Digits are not the name of a number. -/
theorem ne_name_of_isDigit {digits : List Char} (filled : digits ≠ [])
    (all : ∀ c ∈ digits, c.isDigit = true) {first : Char} {rest : List Char} (letter : first.isDigit = false) :
    String.ofList (digits.map Char.toLower) ≠ String.ofList (first :: rest) := by
  intro named
  obtain ⟨digit, more, rfl⟩ := List.exists_cons_of_ne_nil filled
  have isDigit := all digit List.mem_cons_self
  obtain ⟨same, -⟩ := List.cons.inj (String.ofList_injective named)
  have small := isDigit
  rw [Char.isDigit, Bool.and_eq_true, decide_eq_true_iff, decide_eq_true_iff] at small
  have lower : digit.toLower = digit := by
    refine dif_neg ?_
    rintro ⟨upper, -⟩
    exact absurd (UInt32.le_trans upper small.2) (by decide)
  rw [lower] at same
  rw [same, letter] at isDigit
  contradiction

/-- A text of digits reads as the double nearest to its number. -/
theorem ofText?_of_isDigit {text : String} (filled : text.toList ≠ [])
    (all : ∀ c ∈ text.toList, c.isDigit = true) :
    ofText? text = some (ofDecimal false (Text.number text.toList) 0) := by
  unfold ofText?
  simp only [Text.signed_of_isDigit all]
  rw [if_neg, if_neg, decimal?_of_isDigit filled all]
  · exact ne_name_of_isDigit filled all (by decide)
  · rintro (named | named) <;> exact ne_name_of_isDigit filled all (by decide) named

/-- The text of a whole number reads as a double. -/
theorem isSome_ofText?_integer (n : Nat) : (ofText? (String.ofList (Text.integer n))).isSome = true := by
  have digits : Text.integer n = Nat.toDigits 10 n := if_neg (by omega)
  rw [digits, ofText?_of_isDigit]
  · rfl
  · rw [String.toList_ofList]
    exact Nat.toDigits_ne_nil
  · rw [String.toList_ofList]
    exact fun _ member => Text.isDigit_of_mem_toDigits member

end Binary64

end JobQueue
