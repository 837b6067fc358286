import JobQueue.Binary64.Text
import JobQueue.Proofs.Text.Digits

/-! # How the text of a double begins

A decimal that stands for a double has at least one digit and nothing but digits. Whichever way it is laid
out, its text begins with a digit, behind the sign if there is one.
-/

namespace JobQueue

/-- A text that begins with a digit. -/
def DigitFirst (text : List Char) : Prop := ∃ c rest, text = c :: rest ∧ c.isDigit = true

namespace DigitFirst

theorem zero (rest : List Char) : DigitFirst ('0' :: rest) := ⟨'0', rest, rfl, rfl⟩

theorem append {text : List Char} (first : DigitFirst text) (more : List Char) :
    DigitFirst (text ++ more) := by
  obtain ⟨c, rest, rfl, digit⟩ := first
  exact ⟨c, rest ++ more, rfl, digit⟩

theorem take {text : List Char} (first : DigitFirst text) {count : Nat} (positive : 0 < count) :
    DigitFirst (text.take count) := by
  obtain ⟨c, rest, rfl, digit⟩ := first
  obtain ⟨fewer, rfl⟩ := Nat.exists_eq_succ_of_ne_zero (Nat.pos_iff_ne_zero.mp positive)
  exact ⟨c, rest.take fewer, rfl, digit⟩

end DigitFirst

theorem Decimal.digitFirst_ofScientific (significand : Nat) (exponent : Int) :
    DigitFirst (ofScientific significand exponent).digits := by
  have digits {kept : List Char} (all : ∀ c ∈ kept, c.isDigit = true) :
      DigitFirst (if kept.isEmpty then ['0'] else kept) := by
    cases kept with
    | nil => exact DigitFirst.zero []
    | cons c rest => exact ⟨c, rest, rfl, all c (List.mem_cons_self ..)⟩
  apply digits
  intro c member
  have written := (List.dropWhile_sublist _).subset (List.mem_reverse.mp member)
  exact Text.isDigit_of_mem_toDigits (List.mem_reverse.mp written)

/-- The shortest decimal of a double is made of a number and a power of ten. -/
theorem Binary64.exists_ofScientific (tie : Tie) (magnitude : Nat) :
    ∃ significand exponent, shortest tie magnitude = Decimal.ofScientific significand exponent := by
  unfold shortest
  split
  · exact ⟨0, 0, rfl⟩
  · dsimp only
    cases found : (List.range 17).findSome? fun fewer =>
        (onGrid? tie magnitude (decimalPosition (unitsOf magnitude)) (fewer + 1)).map fun multiple =>
          Decimal.ofScientific multiple (decimalPosition (unitsOf magnitude) - (fewer + 1 : Nat)) with
    | none => exact ⟨_, _, rfl⟩
    | some decimal =>
      obtain ⟨_, _, _, -, here, -⟩ := List.findSome?_eq_some_iff.mp found
      obtain ⟨multiple, -, rfl⟩ := Option.map_eq_some_iff.mp here
      exact ⟨_, _, rfl⟩

theorem Binary64.digitFirst_shortest (tie : Tie) (magnitude : Nat) :
    DigitFirst (shortest tie magnitude).digits := by
  obtain ⟨significand, exponent, made⟩ := exists_ofScientific tie magnitude
  rw [made]
  exact Decimal.digitFirst_ofScientific significand exponent

namespace NumberLayout

variable {layout : NumberLayout} {number : Decimal}

theorem digitFirst_point (digits : DigitFirst number.digits) : DigitFirst (layout.point number) := by
  simp only [point]
  split
  · exact DigitFirst.zero _
  split
  · exact (digits.append _).append _
  · next positive _ => exact (digits.take (by omega)).append _

theorem digitFirst_scientific (digits : DigitFirst number.digits) :
    DigitFirst (layout.scientific number) := by
  obtain ⟨c, rest, equal, digit⟩ := digits
  simp only [scientific, equal]
  cases rest with
  | nil => exact ⟨c, _, rfl, digit⟩
  | cons d rest => exact ⟨c, _, rfl, digit⟩

/-- The text of a double is the name of a value without digits, or begins with a sign or a digit. -/
theorem write_head (layout : NumberLayout) (x : Binary64) :
    layout.write x ∈ [layout.nan, layout.infinity, layout.negativeInfinity] ∨
      DigitFirst (layout.write x).toList ∨ ∃ rest, (layout.write x).toList = '-' :: rest := by
  simp only [write]
  split
  · simp
  split
  · split <;> simp
  · right
    have digits := Binary64.digitFirst_shortest layout.tie x.magnitude
    split
    · exact .inr ⟨_, String.toList_ofList⟩
    · left
      rw [String.toList_ofList]
      split
      · exact digitFirst_point digits
      · exact digitFirst_scientific digits

end NumberLayout

end JobQueue
