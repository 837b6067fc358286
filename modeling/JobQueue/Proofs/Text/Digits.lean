import JobQueue.Text.Digits
import Mathlib.Algebra.Group.Nat.Defs

/-! # Digits written and read

The decimal digits of a number spell that number, with and without zeros in front. A run of digits is
found whole if no digit stands behind it, so what follows further on has no say.
-/

namespace JobQueue.Text

theorem numberFrom_eq_ofDigitChars (begun : Nat) (digits : List Char) :
    numberFrom begun digits = Nat.ofDigitChars 10 digits begun := by
  simp only [numberFrom, digitValue, Nat.ofDigitChars_eq_foldl, Nat.mul_comm]

/-- The decimal digits of a number spell it. -/
@[simp] theorem number_toDigits (n : Nat) : number (Nat.toDigits 10 n) = n := by
  rw [number, numberFrom_eq_ofDigitChars, Nat.ofDigitChars_ten_toDigits]

/-- Digits only make a number larger. -/
theorem le_numberFrom (begun : Nat) (digits : List Char) : begun ≤ numberFrom begun digits := by
  induction digits generalizing begun with
  | nil => exact Nat.le_refl _
  | cons digit rest ih =>
    have more := ih (begun * 10 + digitValue digit)
    simp only [numberFrom, List.foldl_cons] at more ⊢
    omega

theorem isDigit_of_mem_toDigits {n : Nat} {c : Char} (member : c ∈ Nat.toDigits 10 n) :
    c.isDigit = true :=
  Nat.isDigit_of_mem_toDigits (by decide) (by decide) member

private theorem digitChar_ne_zero {digit : Nat} (small : digit < 10) (positive : 0 < digit) :
    digit.digitChar ≠ '0' := by
  revert digit
  decide

/-- A positive number is written without a zero in front. -/
theorem head?_toDigits {n : Nat} (positive : 0 < n) : (Nat.toDigits 10 n).head? ≠ some '0' := by
  induction n using Nat.strongRecOn with
  | ind n ih =>
    by_cases small : n < 10
    · rw [Nat.toDigits_of_lt_base small, List.head?_cons]
      exact fun equal => digitChar_ne_zero small positive (Option.some.inj equal)
    · rw [Nat.toDigits_of_base_le (by decide) (by omega), List.head?_append]
      have shorter := ih (n / 10) (by omega) (by omega)
      cases digits : Nat.toDigits 10 (n / 10) with
      | nil => exact absurd digits Nat.toDigits_ne_nil
      | cons first rest => rwa [digits] at shorter

theorem padded_isDigit {width n : Nat} {c : Char} (member : c ∈ padded width n) : c.isDigit = true := by
  rcases List.mem_append.mp member with zero | digit
  · rw [List.eq_of_mem_replicate zero]
    rfl
  · exact isDigit_of_mem_toDigits digit

/-- Zeros in front do not change a number. -/
@[simp] theorem number_padded (width n : Nat) : number (padded width n) = n := by
  rw [number, numberFrom_eq_ofDigitChars, padded, Nat.ofDigitChars_append, Nat.ofDigitChars_replicate_zero,
    Nat.mul_zero, Nat.ofDigitChars_ten_toDigits]

theorem digitValue_le {c : Char} (digit : c.isDigit = true) : digitValue c ≤ 9 := by
  rw [Char.isDigit_iff_toNat] at digit
  change 48 ≤ c.toNat ∧ c.toNat ≤ 57 at digit
  change c.toNat - 48 ≤ 9
  omega

/-- The number of some digits in front of others. -/
theorem number_append (front back : List Char) :
    number (front ++ back) = number front * 10 ^ back.length + number back := by
  rw [number, numberFrom_append, numberFrom_eq_ofDigitChars, Nat.ofDigitChars_eq_ofDigitChars_zero,
    Nat.mul_comm, ← numberFrom_eq_ofDigitChars 0 back]
  rfl

/-- A run of digits spells less than the power of ten that it is long. -/
theorem number_lt {digits : List Char} (all : ∀ c ∈ digits, c.isDigit = true) :
    number digits < 10 ^ digits.length := by
  induction digits with
  | nil => decide
  | cons c rest ih =>
    have small := digitValue_le (all c List.mem_cons_self)
    have behind := ih fun d member => all d (List.mem_cons_of_mem _ member)
    have whole : number (c :: rest) = digitValue c * 10 ^ rest.length + number rest := by
      rw [← List.singleton_append, number_append]
      exact congrArg (· * _ + _) (Nat.zero_add _)
    calc number (c :: rest) < digitValue c * 10 ^ rest.length + 10 ^ rest.length := by omega
      _ = (digitValue c + 1) * 10 ^ rest.length := (Nat.succ_mul _ _).symm
      _ ≤ 10 * 10 ^ rest.length := Nat.mul_le_mul_right _ (Nat.succ_le_succ small)
      _ = 10 ^ (c :: rest).length := by rw [List.length_cons, Nat.pow_succ, Nat.mul_comm]

/-- Padding reaches the width exactly, if the number fits. -/
theorem padded_length {width n : Nat} (positive : 0 < width) (fits : n < 10 ^ width) :
    (padded width n).length = width := by
  have bound := (Nat.length_toDigits_le_iff (by decide) positive).mpr fits
  rw [padded, List.length_append, List.length_replicate]
  omega

/-- Where no digit stands there is no run. -/
theorem digitRun_eq_nil {text : List Char} (stop : text.head?.any Char.isDigit = false) :
    digitRun text = ([], text) := by
  cases text with
  | nil => rfl
  | cons c text =>
    have other : ¬ c.isDigit = true := by simpa using stop
    rw [digitRun, List.takeWhile_cons_of_neg other, List.dropWhile_cons_of_neg other]

/-- Digits with no digit behind them are one run. -/
theorem digitRun_of_isDigit {digits more : List Char} (all : ∀ c ∈ digits, c.isDigit = true)
    (stop : more.head?.any Char.isDigit = false) : digitRun (digits ++ more) = (digits, more) := by
  have behind := digitRun_eq_nil stop
  simp only [digitRun, Prod.mk.injEq] at behind ⊢
  rw [List.takeWhile_append_of_pos all, List.dropWhile_append_of_pos all, behind.1, behind.2, List.append_nil]
  exact ⟨rfl, rfl⟩

/-- A run of digits that ends within a text is not changed by what follows the text. -/
theorem digitRun_append_right (text more : List Char)
    (stop : (digitRun text).2 = [] → more.head?.any Char.isDigit = false) :
    digitRun (text ++ more) = ((digitRun text).1, (digitRun text).2 ++ more) := by
  have whole := digitRun_append text
  have behind : ((digitRun text).2 ++ more).head?.any Char.isDigit = false := by
    cases left : (digitRun text).2 with
    | nil => exact stop left
    | cons c rest =>
      have next : (digitRun text).2.head? = some c := by rw [left, List.head?_cons]
      rw [List.cons_append, List.head?_cons, Option.any_some, digitRun_head? next]
  have digits : ∀ c ∈ (digitRun text).1, c.isDigit = true := fun _ member => digitRun_isDigit member
  have run := digitRun_of_isDigit digits behind
  rwa [← List.append_assoc, whole] at run

end JobQueue.Text
