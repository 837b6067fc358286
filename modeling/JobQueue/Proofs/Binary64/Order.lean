import Mathlib.Algebra.Group.Nat.Defs
import JobQueue.Binary64

/-! # The order of doubles

Magnitudes order like the units they stand for, so the places of doubles order like their values. An integer
that needs no more than 53 binary digits is a double, and rounds to itself; so such integers order as doubles
as they do as integers.
-/

namespace JobQueue.Binary64

/-- The next magnitude stands for more units. -/
theorem unitsOf_lt_succ (magnitude : Nat) : unitsOf magnitude < unitsOf (magnitude + 1) := by
  simp only [unitsOf, Nat.pow_eq]
  by_cases last : magnitude % 0x10000000000000 + 1 < 0x10000000000000
  · have exponent : (magnitude + 1) / 0x10000000000000 = magnitude / 0x10000000000000 := by omega
    have fraction : (magnitude + 1) % 0x10000000000000 = magnitude % 0x10000000000000 + 1 := by omega
    rw [exponent, fraction]
    split
    · exact Nat.lt_succ_self _
    · exact Nat.mul_lt_mul_of_pos_right (by omega) (Nat.two_pow_pos _)
  · have exponent : (magnitude + 1) / 0x10000000000000 = magnitude / 0x10000000000000 + 1 := by omega
    have fraction : (magnitude + 1) % 0x10000000000000 = 0 := by omega
    rw [exponent, fraction, if_neg (Nat.succ_ne_zero _), Nat.add_sub_cancel]
    split
    · next subnormal =>
      rw [subnormal]
      omega
    · next normal =>
      obtain ⟨below, same⟩ := Nat.exists_eq_succ_of_ne_zero normal
      rw [same, Nat.succ_sub_one, Nat.pow_succ]
      have positive := Nat.two_pow_pos below
      calc (0x10000000000000 + magnitude % 0x10000000000000) * 2 ^ below
          < (0x10000000000000 * 2) * 2 ^ below := Nat.mul_lt_mul_of_pos_right (by omega) positive
        _ = (0x10000000000000 + 0) * (2 ^ below * 2) := by omega

theorem unitsOf_lt {magnitude other : Nat} (less : magnitude < other) :
    unitsOf magnitude < unitsOf other := by
  induction less with
  | refl => exact unitsOf_lt_succ magnitude
  | step _ ih => exact Nat.lt_trans ih (unitsOf_lt_succ _)

theorem unitsOf_lt_iff {magnitude other : Nat} : unitsOf magnitude < unitsOf other ↔ magnitude < other := by
  constructor
  · intro less
    apply Nat.lt_of_not_le
    intro atMost
    rcases Nat.lt_or_eq_of_le atMost with more | rfl
    · exact absurd (unitsOf_lt more) (Nat.lt_asymm less)
    · exact Nat.lt_irrefl _ less
  · exact unitsOf_lt

/-- Places order like units. -/
theorem place_le_iff {x y : Binary64} : x.place ≤ y.place ↔ x.units ≤ y.units := by
  have less := @unitsOf_lt_iff x.magnitude y.magnitude
  have more := @unitsOf_lt_iff y.magnitude x.magnitude
  have first := @unitsOf_lt_iff 0 x.magnitude
  have second := @unitsOf_lt_iff 0 y.magnitude
  have zero : unitsOf 0 = 0 := rfl
  rw [zero] at first second
  unfold place units
  split <;> split <;> omega

/-- Ranks order like places, but that they tell the zeros apart. -/
theorem place_lt_of_rank_lt {x y : Binary64} (lower : x.rank < y.rank) :
    x.place < y.place ∨ x = zero true ∧ y = zero false := by
  obtain ⟨negative, magnitude, _⟩ := x
  obtain ⟨sign, other, _⟩ := y
  cases negative <;> cases sign <;> simp only [rank, place, Bool.false_eq_true, if_true, if_false] at lower ⊢
  case true.false =>
    -- a negative number and one that is not meet only at zero
    by_cases zeros : magnitude = 0 ∧ other = 0
    · obtain ⟨rfl, rfl⟩ := zeros
      exact .inr ⟨rfl, rfl⟩
    · omega
  all_goals omega

/-- The magnitude of a number of units that has 53 binary digits from some digit on. -/
theorem unitsOf_normal {whole : Nat} (low : 0x10000000000000 ≤ whole) (high : whole < 0x20000000000000)
    (shift : Nat) : unitsOf (shift * 0x10000000000000 + whole) = whole * 2 ^ shift := by
  have exponent : (shift * 0x10000000000000 + whole) / 0x10000000000000 = shift + 1 := by omega
  have fraction : (shift * 0x10000000000000 + whole) % 0x10000000000000 = whole - 0x10000000000000 := by omega
  simp only [unitsOf, exponent, fraction, Nat.pow_eq]
  rw [if_neg (Nat.succ_ne_zero _), Nat.add_sub_cancel, Nat.add_sub_cancel' low]

theorem log2_normal {whole : Nat} (low : 2 ^ 52 ≤ whole) (high : whole < 2 ^ 53) (shift : Nat) :
    (whole * 2 ^ shift).log2 = 52 + shift := by
  have positive := Nat.two_pow_pos shift
  have filled : 0 < whole * 2 ^ shift := Nat.mul_pos (Nat.lt_of_lt_of_le (by decide) low) positive
  rw [Nat.log2_eq_iff (Nat.pos_iff_ne_zero.mp filled)]
  constructor
  · rw [Nat.pow_add]
    exact Nat.mul_le_mul_right _ low
  · rw [Nat.add_right_comm, Nat.pow_add]
    exact Nat.mul_lt_mul_of_pos_right high positive

/-- A number of units that has 53 binary digits is not rounded. -/
theorem roundMagnitude_normal {whole shift : Nat} (low : 0x10000000000000 ≤ whole)
    (high : whole < 0x20000000000000) (finite : shift ≤ 2045) :
    roundMagnitude (whole * 2 ^ shift) 1 = shift * 0x10000000000000 + whole := by
  have log : (whole * 2 ^ shift).log2 - 52 = shift := by
    rw [log2_normal low high, Nat.add_sub_cancel_left]
  have positive := Nat.two_pow_pos shift
  simp only [roundMagnitude, Nat.div_one, Nat.one_mul, Nat.pow_eq, log]
  rw [Nat.mul_div_cancel _ positive, Nat.mul_mod_left, if_neg (by omega)]
  apply Nat.min_eq_left
  unfold infiniteMagnitude
  omega

/-- A whole number of at most 53 binary digits has 53 of them, if zeros are put behind it. -/
theorem exists_normal {n zeros : Nat} (positive : 0 < n) (bounded : n ≤ 2 ^ 53) (many : 52 ≤ zeros) :
    ∃ whole shift, 0x10000000000000 ≤ whole ∧ whole < 0x20000000000000 ∧ shift ≤ zeros + 1 ∧
      n * 2 ^ zeros = whole * 2 ^ shift := by
  have nonzero := Nat.pos_iff_ne_zero.mp positive
  rcases Nat.lt_or_eq_of_le bounded with less | rfl
  · have below : n.log2 < 53 := (Nat.log2_lt nonzero).mpr less
    have low := Nat.log2_self_le nonzero
    have high := @Nat.lt_log2_self n
    refine ⟨n * 2 ^ (52 - n.log2), zeros - 52 + n.log2, ?_, ?_, by omega, ?_⟩
    · calc 0x10000000000000 = 2 ^ (n.log2 + (52 - n.log2)) := by rw [Nat.add_sub_cancel' (by omega)]
        _ = 2 ^ n.log2 * 2 ^ (52 - n.log2) := Nat.pow_add ..
        _ ≤ n * 2 ^ (52 - n.log2) := Nat.mul_le_mul_right _ low
    · calc n * 2 ^ (52 - n.log2)
          < 2 ^ (n.log2 + 1) * 2 ^ (52 - n.log2) := Nat.mul_lt_mul_of_pos_right high (Nat.two_pow_pos _)
        _ = 2 ^ (n.log2 + 1 + (52 - n.log2)) := (Nat.pow_add ..).symm
        _ = 2 ^ 53 := congrArg (2 ^ ·) (by omega)
        _ = 0x20000000000000 := rfl
    · rw [Nat.mul_assoc, ← Nat.pow_add]
      congr 2
      omega
  · refine ⟨0x10000000000000, zeros + 1, by decide, by decide, Nat.le_refl _, ?_⟩
    rw [@Nat.pow_succ 2 zeros]
    omega

/-- A number of units that has so many binary digits, or more, has a magnitude that is no less than theirs. -/
theorem le_roundMagnitude {units shift : Nat} (long : 2 ^ (52 + shift) ≤ units) (finite : shift ≤ 2045) :
    shift * 0x10000000000000 + 0x10000000000000 ≤ roundMagnitude units 1 := by
  have filled : units ≠ 0 := Nat.pos_iff_ne_zero.mp (Nat.lt_of_lt_of_le (Nat.two_pow_pos _) long)
  have log : 52 + shift ≤ units.log2 := (Nat.le_log2 filled).mpr long
  have whole : 0x10000000000000 ≤ units / 2 ^ (units.log2 - 52) := by
    rw [Nat.le_div_iff_mul_le (Nat.two_pow_pos _)]
    calc 2 ^ 52 * 2 ^ (units.log2 - 52) = 2 ^ units.log2 := by
          rw [← Nat.pow_add, Nat.add_sub_cancel' (by omega)]
      _ ≤ units := Nat.log2_self_le filled
  simp only [roundMagnitude, Nat.div_one, Nat.one_mul, Nat.pow_eq]
  generalize units / 2 ^ (units.log2 - 52) = digits at whole
  apply Nat.le_min.mpr
  unfold infiniteMagnitude
  split <;> omega

theorem one_eq : one = 2 ^ 1074 := by
  -- the power itself is too large to be looked at
  delta one
  generalize 1074 = zeros
  exact (rfl : Nat.pow 2 zeros = 2 ^ zeros)

/-- A whole number of at most 53 binary digits with zeros behind it is not rounded, and is not too large. -/
theorem roundMagnitude_exact {n zeros : Nat} (bounded : n ≤ 2 ^ 53) (many : 52 ≤ zeros) (few : zeros ≤ 2044) :
    unitsOf (roundMagnitude (n * 2 ^ zeros) 1) = n * 2 ^ zeros ∧
      roundMagnitude (n * 2 ^ zeros) 1 < infiniteMagnitude := by
  rcases Nat.eq_zero_or_pos n with rfl | positive
  · rw [Nat.zero_mul]
    decide
  · obtain ⟨whole, shift, low, high, finite, same⟩ := exists_normal positive bounded many
    rw [same, roundMagnitude_normal low high (by omega), unitsOf_normal low high]
    refine ⟨rfl, ?_⟩
    unfold infiniteMagnitude
    omega

/-- The magnitude of a whole number of at most 53 binary digits stands for that number. -/
theorem unitsOf_roundMagnitude {n : Nat} (bounded : n ≤ 2 ^ 53) :
    unitsOf (roundMagnitude (n * one) 1) = n * one := by
  rw [one_eq]
  exact (@roundMagnitude_exact n 1074 bounded (by decide) (by decide)).1

/-- A whole number of at most 53 binary digits is rounded to no more than one of at least as many. -/
theorem roundMagnitude_le_of_long {n m zeros : Nat} (short : n ≤ 2 ^ 53) (long : 2 ^ 53 ≤ m)
    (many : 52 ≤ zeros) (few : zeros ≤ 2044) :
    roundMagnitude (n * 2 ^ zeros) 1 ≤ roundMagnitude (m * 2 ^ zeros) 1 := by
  have edge : 2 ^ 53 * 2 ^ zeros = 2 ^ (52 + (zeros + 1)) := by
    rw [← Nat.pow_add]
    congr 1
    omega
  have upper : 2 ^ (52 + (zeros + 1)) ≤ m * 2 ^ zeros := edge ▸ Nat.mul_le_mul_right _ long
  refine Nat.le_trans (Nat.le_of_not_lt fun less => ?_) (le_roundMagnitude upper (by omega))
  have units := unitsOf_lt less
  rw [(roundMagnitude_exact short many few).1, unitsOf_normal (by decide) (by decide)] at units
  have lower : n * 2 ^ zeros ≤ 2 ^ (52 + (zeros + 1)) := edge ▸ Nat.mul_le_mul_right _ short
  rw [Nat.pow_add] at lower
  exact Nat.lt_irrefl _ (Nat.lt_of_lt_of_le units lower)

theorem one_pos : 0 < one := by
  delta one
  generalize 1074 = zeros
  exact Nat.two_pow_pos zeros

/-! ## The order of integers among the doubles -/

theorem isNaN_ofInt (n : Int) : (ofInt n).isNaN = false :=
  decide_eq_false (Nat.not_lt.mpr (roundMagnitude_le ..))

/-- Only negative integers have a sign, and they are not zero. -/
theorem negative_ofInt {n : Int} (bounded : n.natAbs ≤ 2 ^ 53) :
    ((ofInt n).negative = true ↔ n < 0) ∧ (n < 0 → 0 < (ofInt n).magnitude) := by
  refine ⟨decide_eq_true_iff, ?_⟩
  intro below
  have units := unitsOf_roundMagnitude bounded
  apply Nat.pos_of_ne_zero
  intro zero
  change roundMagnitude (n.natAbs * one) 1 = 0 at zero
  rw [zero] at units
  have product : n.natAbs * one ≠ 0 := Nat.mul_ne_zero (by omega) (Nat.pos_iff_ne_zero.mp one_pos)
  exact product units.symm

theorem magnitude_ofInt_lt {a b : Int} (boundedA : a.natAbs ≤ 2 ^ 53) (boundedB : b.natAbs ≤ 2 ^ 53) :
    (ofInt a).magnitude < (ofInt b).magnitude ↔ a.natAbs < b.natAbs := by
  change roundMagnitude (a.natAbs * one) 1 < roundMagnitude (b.natAbs * one) 1 ↔ _
  rw [← unitsOf_lt_iff, unitsOf_roundMagnitude boundedA, unitsOf_roundMagnitude boundedB,
    Nat.mul_lt_mul_right one_pos]

theorem magnitude_ofInt_le {a b : Int} (bounded : a.natAbs ≤ 2 ^ 53) (long : 2 ^ 53 ≤ b.natAbs) :
    (ofInt a).magnitude ≤ (ofInt b).magnitude := by
  change roundMagnitude (a.natAbs * one) 1 ≤ roundMagnitude (b.natAbs * one) 1
  rw [one_eq]
  exact roundMagnitude_le_of_long bounded long (by decide) (by decide)

section Order

variable {a b : Int}

/-- Integers of at most 53 binary digits rank as doubles as they do as integers. -/
theorem rank_ofInt_lt (boundedA : a.natAbs ≤ 2 ^ 53) (boundedB : b.natAbs ≤ 2 ^ 53) :
    (ofInt a).rank < (ofInt b).rank ↔ a < b := by
  have less := magnitude_ofInt_lt boundedA boundedB
  have more := magnitude_ofInt_lt boundedB boundedA
  obtain ⟨signA, -⟩ := negative_ofInt boundedA
  obtain ⟨signB, -⟩ := negative_ofInt boundedB
  simp only [rank, signA, signB]
  split <;> split <;> omega

theorem rank_ofInt_inj (boundedA : a.natAbs ≤ 2 ^ 53) (boundedB : b.natAbs ≤ 2 ^ 53) :
    (ofInt a).rank = (ofInt b).rank ↔ a = b := by
  have less := rank_ofInt_lt boundedA boundedB
  have more := rank_ofInt_lt boundedB boundedA
  omega

theorem atMost_ofInt (boundedA : a.natAbs ≤ 2 ^ 53) (boundedB : b.natAbs ≤ 2 ^ 53) :
    (ofInt a).atMost (ofInt b) = true ↔ a ≤ b := by
  have less := magnitude_ofInt_lt boundedA boundedB
  have more := magnitude_ofInt_lt boundedB boundedA
  obtain ⟨signA, positiveA⟩ := negative_ofInt boundedA
  obtain ⟨signB, positiveB⟩ := negative_ofInt boundedB
  simp only [atMost, isNaN_ofInt, Bool.not_false, Bool.true_and, decide_eq_true_iff, place, signA, signB]
  split <;> split <;> omega

/-- An integer of at most 53 binary digits is no more than any greater one, which may be rounded. -/
theorem atMost_ofInt_of_le (bounded : a.natAbs ≤ 2 ^ 53) (le : a ≤ b) :
    (ofInt a).atMost (ofInt b) = true := by
  by_cases short : b.natAbs ≤ 2 ^ 53
  · exact (atMost_ofInt bounded short).mpr le
  · have less := magnitude_ofInt_le bounded (Nat.le_of_not_le short)
    have positive : (ofInt b).negative = false := decide_eq_false (by omega)
    simp only [atMost, isNaN_ofInt, Bool.not_false, Bool.true_and, decide_eq_true_iff, place, positive,
      Bool.false_eq_true, if_false]
    split <;> omega

end Order

end JobQueue.Binary64
