import JobQueue.Proofs.Binary64.Order
import JobQueue.Proofs.Binary64.Read

/-! # Whole numbers among the doubles

A finite double is whole if it stands for an integer. Whole doubles compare as their integers do, except that
the two zeros differ in rank, and a sum of them that needs no more than 53 binary digits is not rounded. So
sums of whole doubles are exact as long as they stay small.
-/

namespace JobQueue.Binary64

/-- The integer that a double stands for, or the next one below. -/
def whole (x : Binary64) : Int := x.units / one

/-- A double that stands for an integer. -/
structure IsWhole (x : Binary64) : Prop where
  finite : x.isFinite = true
  units_eq : x.units = x.whole * one

/-- A whole number that is a double: it has at most 53 binary digits, or is even and has one more. -/
def Exact (n : Nat) : Prop := n ≤ 2 ^ 53 ∨ 2 ∣ n ∧ n ≤ 2 ^ 54

variable {x y : Binary64}

theorem isWhole_of_units {n : Int} (finite : x.isFinite = true) (units : x.units = n * one) :
    x.IsWhole ∧ x.whole = n := by
  have value : x.whole = n := by
    rw [whole, units]
    exact Int.mul_ediv_cancel _ (Int.ofNat_ne_zero.mpr (Nat.ne_of_gt one_pos))
  refine ⟨⟨finite, ?_⟩, value⟩
  rw [value, units]

/-- A whole number that is a double is not rounded. -/
theorem unitsOf_exact {n : Nat} (exact : Exact n) :
    unitsOf (roundMagnitude (n * one) 1) = n * one ∧ roundMagnitude (n * one) 1 < infiniteMagnitude := by
  rw [one_eq]
  rcases exact with small | ⟨⟨half, rfl⟩, bounded⟩
  · exact @roundMagnitude_exact n 1074 small (by decide) (by decide)
  · -- the last binary digit is one of the zeros behind the others
    have zeros (digits : Nat) : 2 * half * 2 ^ digits = half * 2 ^ (digits + 1) := by
      rw [Nat.pow_succ', Nat.mul_comm 2 half, Nat.mul_assoc]
    rw [zeros]
    exact @roundMagnitude_exact half (1074 + 1) (by omega) (by decide) (by decide)

theorem units_nearest (negative : Bool) (numerator denominator : Nat) :
    (nearest negative numerator denominator).units =
      if negative then -(unitsOf (roundMagnitude numerator denominator) : Int)
      else unitsOf (roundMagnitude numerator denominator) :=
  rfl

/-- The nearest double to a whole number that is one. -/
theorem isWhole_nearest {n : Nat} (exact : Exact n) (negative : Bool) :
    (nearest negative (n * one) 1).IsWhole ∧
      (nearest negative (n * one) 1).whole = if negative then -(n : Int) else n := by
  obtain ⟨units, finite⟩ := unitsOf_exact exact
  apply isWhole_of_units
  · exact decide_eq_true finite
  · rw [units_nearest, units, Int.natCast_mul]
    split
    · exact (Int.neg_mul ..).symm
    · rfl

theorem isWhole_ofInt {n : Int} (bounded : n.natAbs ≤ 2 ^ 53) : (ofInt n).IsWhole ∧ (ofInt n).whole = n := by
  obtain ⟨isWhole, value⟩ := isWhole_nearest (.inl bounded) (n < 0)
  refine ⟨isWhole, value.trans ?_⟩
  simp only [decide_eq_true_iff]
  split <;> omega

theorem isWhole_zero (negative : Bool) : (zero negative).IsWhole ∧ (zero negative).whole = 0 := by
  apply isWhole_of_units rfl
  rw [Int.zero_mul]
  cases negative <;> rfl

/-- Digits that spell a double read as that double. -/
theorem isWhole_ofText? {text : String} (filled : text.toList ≠ [])
    (digits : ∀ c ∈ text.toList, c.isDigit = true) (exact : Exact (Text.number text.toList)) :
    ∃ x, ofText? text = some x ∧ x.IsWhole ∧ x.whole = Text.number text.toList := by
  refine ⟨_, ofText?_of_isDigit filled digits, ?_⟩
  have short : (Nat.toDigits 10 (Text.number text.toList)).length ≤ 17 := by
    rw [Nat.length_toDigits_le_iff (by decide) (by decide)]
    rcases exact with small | ⟨-, bounded⟩ <;> omega
  unfold ofDecimal
  simp only
  split
  · next none =>
    have zero : Text.number text.toList = 0 := none.resolve_right (by omega)
    rw [zero]
    exact isWhole_zero false
  · rw [if_neg (by omega)]
    have read : Text.number text.toList * Nat.pow 10 (0 : Int).toNat * one = Text.number text.toList * one :=
      congrArg (· * one) (Nat.mul_one _)
    rw [read]
    exact isWhole_nearest exact false

namespace IsWhole

/-! ## Sums -/

theorem isNaN (isWhole : x.IsWhole) : x.isNaN = false := by
  have finite := of_decide_eq_true isWhole.finite
  exact decide_eq_false (Nat.lt_asymm finite)

theorem isInfinite (isWhole : x.IsWhole) : x.isInfinite = false := by
  have finite := of_decide_eq_true isWhole.finite
  exact decide_eq_false (Nat.ne_of_lt finite)

/-- A sum that needs no more than 53 binary digits is not rounded. -/
theorem add (isWhole : x.IsWhole) (other : y.IsWhole) (bounded : (x.whole + y.whole).natAbs ≤ 2 ^ 53) :
    (x.add y).IsWhole ∧ (x.add y).whole = x.whole + y.whole := by
  have total : x.units + y.units = (x.whole + y.whole) * one := by
    rw [isWhole.units_eq, other.units_eq, Int.add_mul]
  have positive : (0 : Int) < one := Int.natCast_pos.mpr one_pos
  unfold Binary64.add
  simp only [isWhole.isNaN, other.isNaN, isWhole.isInfinite, other.isInfinite, total, Bool.false_eq_true,
    if_false, Int.mul_eq_zero, Int.ne_of_gt positive, or_false]
  split
  · next nothing =>
    rw [nothing]
    exact isWhole_zero _
  · have sign : decide ((x.whole + y.whole) * one < 0) = decide (x.whole + y.whole < 0) := by
      rw [decide_eq_decide, ← @Int.mul_lt_mul_right one (x.whole + y.whole) 0 positive, Int.zero_mul]
    rw [sign, Int.natAbs_mul, Int.natAbs_natCast]
    exact isWhole_ofInt bounded

/-! ## Order -/

theorem units_le_iff (isWhole : x.IsWhole) (other : y.IsWhole) : x.units ≤ y.units ↔ x.whole ≤ y.whole := by
  rw [isWhole.units_eq, other.units_eq]
  exact Int.mul_le_mul_iff_of_pos_right (Int.natCast_pos.mpr one_pos)

theorem atMost_iff (isWhole : x.IsWhole) (other : y.IsWhole) : x.atMost y = true ↔ x.whole ≤ y.whole := by
  simp only [atMost, isWhole.isNaN, other.isNaN, Bool.not_false, Bool.true_and, decide_eq_true_iff,
    place_le_iff, isWhole.units_le_iff other]

/-- A lower rank is a lower integer, but for the two zeros. -/
theorem of_rank_lt (isWhole : x.IsWhole) (other : y.IsWhole) (lower : x.rank < y.rank) :
    x.whole < y.whole ∨ x = zero true ∧ y = zero false := by
  refine (place_lt_of_rank_lt lower).imp_left fun less => ?_
  rwa [← Int.not_le, ← other.units_le_iff isWhole, ← place_le_iff, Int.not_le]

end IsWhole

end JobQueue.Binary64
