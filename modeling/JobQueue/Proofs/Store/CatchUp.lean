import Mathlib.Algebra.GroupWithZero.Nat
import Mathlib.Algebra.Order.BigOperators.Group.List
import Mathlib.Algebra.Order.Group.Nat
import JobQueue.Proofs.Binary64.Whole
import JobQueue.Proofs.Store.Transfer
import JobQueue.Proofs.Text.Bytes

/-! # Catching up with a schedule

A schedule that is behind fires until nothing is ready any more: a member without a step fires once, and a
member with a step fires at its score, one step later, and so on. So the firings of a member are known in
advance, and what is left to fire becomes less with each firing. The firings of all members come in the order
of their times, which is that of the scores as long as all scores are whole.
-/

namespace JobQueue.Schedule

/-- A member fires at its score. -/
abbrev Firing := String × Binary64

/-- Earlier times come first, and members of one time in the order of their bytes; but `-0.0`, which is the
same time as `0.0`, comes before it. -/
def Firing.Before (firing other : Firing) : Prop :=
  firing.2.whole < other.2.whole ∨ firing.2.whole = other.2.whole ∧
    (firing.2 = .zero true ∧ other.2 = .zero false ∨
      firing.2 = other.2 ∧ Text.bytes firing.1 < Text.bytes other.1)

/-- How often a member fires up to a time. -/
def count (now start : Int) : Option Nat → Nat
  | none => if start ≤ now then 1 else 0
  | some step => if start ≤ now then ((now - start) / step).toNat + 1 else 0

/-- The times at which a member fires. -/
def times (now start : Int) (step? : Option Nat) : List Int :=
  (List.range (count now start step?)).map fun k : Nat => start + k * step?.getD 0

/-- Scores that are whole, and that stay whole when they are put off from before a time to behind it. -/
structure Regular (now : Int) (step? : String → Option Nat) (scores : Dict Binary64) : Prop where
  distinct : (Dict.keys scores).Nodup
  whole {member : String} {score : Binary64} (scored : Dict.get? scores member = some score) : score.IsWhole
  bounded {member : String} {score : Binary64} (scored : Dict.get? scores member = some score) :
    score.whole.natAbs ≤ 2 ^ 53
  steps {member : String} {score : Binary64} (scored : Dict.get? scores member = some score) {step : Nat}
    (recurs : step? member = some step) : 1 ≤ step ∧ now + step ≤ 2 ^ 53

/-- A member has fired: it is put off by its step, or taken out if it has none. -/
structure Fires (step? : String → Option Nat) (scores : Dict Binary64) (member : String) (score : Binary64)
    (next : Dict Binary64) : Prop where
  distinct : (Dict.keys next).Nodup
  others (other : String) : other ≠ member → Dict.get? next other = Dict.get? scores other
  once (oneShot : step? member = none) : Dict.get? next member = none
  again {step : Nat} (recurs : step? member = some step) :
    ∃ later, Dict.get? next member = some later ∧ later.IsWhole ∧ later.whole = score.whole + step

/-- What is left of a member when its firings up to a time are over. -/
inductive Leaves (now : Int) : Option Nat → Option Binary64 → Option Binary64 → Prop
  | absent (step? : Option Nat) : Leaves now step? none none
  | spared (step? : Option Nat) {score : Binary64} (late : now < score.whole) :
    Leaves now step? (some score) (some score)
  | once {score : Binary64} (come : score.whole ≤ now) : Leaves now none (some score) none
  /-- A member with a step is left with the first of its times that has not come. -/
  | again {step k : Nat} {score later : Binary64} (isWhole : later.IsWhole)
    (sum : later.whole = score.whole + k * step) (late : now < later.whole)
    (first : ∀ j : Nat, j < k → score.whole + j * step ≤ now) (fired : 0 < k) :
    Leaves now (some step) (some score) (some later)

/-- The firings up to a time, and what is left then. -/
structure CaughtUp (now : Int) (step? : String → Option Nat) (scores : Dict Binary64) (firings : List Firing)
    (left : Dict Binary64) : Prop where
  inOrder : firings.Pairwise Firing.Before
  /-- The first firing of a member is its score, and the others are later. -/
  since : ∀ firing ∈ firings, ∃ score, Dict.get? scores firing.1 = some score ∧
    (firing.2 = score ∨ score.whole < firing.2.whole)
  fired {member : String} {score : Binary64} (scored : Dict.get? scores member = some score) :
    (firings.filter (·.1 = member)).map (·.2.whole) = times now score.whole (step? member)
  leaves (member : String) : Leaves now (step? member) (Dict.get? scores member) (Dict.get? left member)

variable {now : Int} {step? : String → Option Nat} {scores next left : Dict Binary64} {member : String}
  {score : Binary64} {firings : List Firing}

/-! ## Times -/

section Times

variable {start : Int}

theorem count_late (late : now < start) (step? : Option Nat) : count now start step? = 0 := by
  cases step? <;> exact if_neg (Int.not_le.mpr late)

/-- A member that recurs fires once more than one that starts a step later. -/
theorem count_step {step : Nat} (positive : 1 ≤ step) (come : start ≤ now) :
    count now start (some step) = count now (start + step) (some step) + 1 := by
  have nonzero : (step : Int) ≠ 0 := by omega
  have shifted : (now - start) / step = (now - (start + step)) / step + 1 := by
    rw [← Int.add_mul_ediv_right _ _ nonzero]
    congr 1
    omega
  simp only [count, if_pos come]
  split
  · next still =>
    have nonneg : 0 ≤ (now - (start + step)) / step := Int.ediv_nonneg (by omega) (by omega)
    omega
  · next late =>
    have small : (now - start) / step = 0 := Int.ediv_eq_zero_of_lt (by omega) (by omega)
    omega

theorem times_late (late : now < start) (step? : Option Nat) : times now start step? = [] := by
  rw [times, count_late late]
  rfl

theorem times_once (come : start ≤ now) : times now start none = [start] := by
  have once : count now start none = 1 := if_pos come
  rw [times, once]
  simp

theorem times_step {step : Nat} (positive : 1 ≤ step) (come : start ≤ now) :
    times now start (some step) = start :: times now (start + step) (some step) := by
  rw [times, count_step positive come, List.range_succ_eq_map, List.map_cons, List.map_map, times]
  congr 1
  · simp
  · apply List.map_congr_left
    intro k _
    simp only [Function.comp_apply, Option.getD_some, Nat.succ_eq_add_one, Int.natCast_add, Int.natCast_one,
      Int.add_mul, Int.one_mul]
    omega

end Times

/-! ## One firing -/

theorem Firing.Before.le {firing other : Firing} (before : firing.Before other) :
    firing.2.whole ≤ other.2.whole := by
  rcases before with less | ⟨same, -⟩ <;> omega

/-- The member that leads fires before all others that are ready. -/
theorem Leads.before (regular : Regular now step? scores) {limit : Binary64} (limited : limit.IsWhole)
    (value : limit.whole = now) (leads : Leads limit scores member score) {other : String} {ready : Binary64}
    (scored : Dict.get? scores other = some ready) (differ : other ≠ member) (come : ready.whole ≤ now) :
    Firing.Before (member, score) (other, ready) := by
  have own := regular.whole (Dict.get?_of_mem regular.distinct leads.among)
  have isWhole := regular.whole scored
  have upTo : ready.atMost limit = true := by
    rw [isWhole.atMost_iff limited, value]
    exact come
  have precedes := leads.first _ (Dict.mem_of_get? scored) upTo
  rcases precedes_iff.mp precedes with lower | ⟨same, le⟩
  · rcases own.of_rank_lt isWhole lower with less | zeros
    · exact .inl less
    · have equal : score.whole = ready.whole := by
        rw [zeros.1, zeros.2, (Binary64.isWhole_zero true).2, (Binary64.isWhole_zero false).2]
      exact .inr ⟨equal, .inl zeros⟩
  · obtain rfl := Binary64.rank_inj same
    exact .inr ⟨rfl, .inr ⟨rfl, Text.bytes_lt_iff.mpr (Std.lt_of_le_of_ne le differ.symm)⟩⟩

namespace Fires

/-- Only what was scored is scored. -/
theorem scored (fires : Fires step? scores member score next) (known : Dict.get? scores member = some score)
    {other : String} {later : Binary64} (found : Dict.get? next other = some later) :
    ∃ earlier, Dict.get? scores other = some earlier := by
  by_cases same : other = member
  · exact ⟨score, same ▸ known⟩
  · exact ⟨later, fires.others other same ▸ found⟩

theorem regular (fires : Fires step? scores member score next) (regular : Regular now step? scores)
    (known : Dict.get? scores member = some score) (come : score.whole ≤ now) : Regular now step? next := by
  have own {later : Binary64} (found : Dict.get? next member = some later) :
      later.IsWhole ∧ later.whole.natAbs ≤ 2 ^ 53 := by
    cases recurs : step? member with
    | none =>
      rw [fires.once recurs] at found
      contradiction
    | some step =>
      obtain ⟨putOff, same, isWhole, sum⟩ := fires.again recurs
      cases same.symm.trans found
      have bounded := regular.bounded known
      have limited := (regular.steps known recurs).2
      exact ⟨isWhole, by omega⟩
  refine ⟨fires.distinct, ?_, ?_, ?_⟩
  · intro other later found
    by_cases same : other = member
    · exact (own (same ▸ found)).1
    · exact regular.whole (fires.others other same ▸ found)
  · intro other later found
    by_cases same : other = member
    · exact (own (same ▸ found)).2
    · exact regular.bounded (fires.others other same ▸ found)
  · intro other later found
    obtain ⟨earlier, before⟩ := fires.scored known found
    exact regular.steps before

end Fires

/-! ## How much is left to fire -/

/-- How often a member is still to fire. -/
def pending (now : Int) (step? : String → Option Nat) (scores : Dict Binary64) (member : String) : Nat :=
  ((Dict.get? scores member).map fun score => count now score.whole (step? member)).getD 0

theorem pending_of_get? (scored : Dict.get? scores member = some score) :
    pending now step? scores member = count now score.whole (step? member) := by
  rw [pending, scored]
  rfl

/-- A firing leaves one less. -/
theorem Fires.pending_lt (fires : Fires step? scores member score next) (regular : Regular now step? scores)
    (known : Dict.get? scores member = some score) (come : score.whole ≤ now) :
    pending now step? next member < pending now step? scores member := by
  rw [pending_of_get? known]
  cases recurs : step? member with
  | none =>
    have once : count now score.whole none = 1 := if_pos come
    rw [pending, fires.once recurs, once]
    exact Nat.one_pos
  | some step =>
    obtain ⟨later, found, -, sum⟩ := fires.again recurs
    rw [pending_of_get? found, recurs, sum, count_step (regular.steps known recurs).1 come]
    exact Nat.lt_succ_self _

/-- How often all of some members are still to fire. -/
def pendingAll (now : Int) (step? : String → Option Nat) (members : List String) (scores : Dict Binary64) : Nat :=
  (members.map (pending now step? scores)).sum

theorem Fires.pendingAll_lt (fires : Fires step? scores member score next) (regular : Regular now step? scores)
    (known : Dict.get? scores member = some score) (come : score.whole ≤ now) {members : List String}
    (among : member ∈ members) :
    pendingAll now step? members next < pendingAll now step? members scores := by
  have less := fires.pending_lt regular known come
  apply List.sum_lt_sum
  · intro other _
    by_cases same : other = member
    · exact same ▸ Nat.le_of_lt less
    · rw [pending, pending, fires.others other same]
  · exact ⟨member, among, less⟩

/-! ## All firings -/

/-- Where nothing is ready there is nothing to catch up with. -/
theorem caughtUp_nil (late : ∀ member score, Dict.get? scores member = some score → now < score.whole) :
    CaughtUp now step? scores [] scores where
  inOrder := .nil
  since := List.forall_mem_nil _
  fired scored := (times_late (late _ _ scored) _).symm
  leaves member := by
    cases scored : Dict.get? scores member with
    | none => exact .absent _
    | some score => exact .spared _ (late _ _ scored)

section Cons

variable (regular : Regular now step? scores) (known : Dict.get? scores member = some score)
  (come : score.whole ≤ now) (fires : Fires step? scores member score next)
  (rest : CaughtUp now step? next firings left)

include regular known fires rest

/-- The member that has fired fires later from then on, and the others as before. -/
theorem since_cons {firing : Firing} (among : firing ∈ firings) :
    ∃ earlier, Dict.get? scores firing.1 = some earlier ∧
      (firing.1 = member → score.whole < firing.2.whole) ∧
      (firing.1 ≠ member → firing.2 = earlier ∨ earlier.whole < firing.2.whole) := by
  obtain ⟨later, found, order⟩ := rest.since firing among
  by_cases same : firing.1 = member
  · rw [same] at found
    refine ⟨score, same ▸ known, fun _ => ?_, fun differ => absurd same differ⟩
    cases recurs : step? member with
    | none =>
      rw [fires.once recurs] at found
      contradiction
    | some step =>
      obtain ⟨putOff, own, -, sum⟩ := fires.again recurs
      cases own.symm.trans found
      have positive := (regular.steps known recurs).1
      rcases order with equal | less
      · rw [equal]
        omega
      · omega
  · exact ⟨later, fires.others _ same ▸ found, fun equal => absurd equal same, fun _ => order⟩

include come

/-- What fires first fires before all that fires later. -/
theorem inOrder_cons
    (first : ∀ other ready, Dict.get? scores other = some ready → other ≠ member → ready.whole ≤ now →
      Firing.Before (member, score) (other, ready)) :
    ∀ firing ∈ firings, Firing.Before (member, score) firing := by
  intro firing among
  obtain ⟨earlier, scored, own, others⟩ := since_cons regular known fires rest among
  by_cases same : firing.1 = member
  · exact .inl (own same)
  · by_cases ready : earlier.whole ≤ now
    · have before := first _ _ scored same ready
      rcases others same with equal | less
      · rwa [← equal] at before
      · exact .inl (Int.lt_of_le_of_lt before.le less)
    · have late : score.whole < earlier.whole := by omega
      rcases others same with equal | less
      · exact .inl (equal ▸ late)
      · exact .inl (Int.lt_trans late less)

theorem fired_cons {other : String} {ready : Binary64} (scored : Dict.get? scores other = some ready) :
    (((member, score) :: firings).filter (·.1 = other)).map (·.2.whole) =
      times now ready.whole (step? other) := by
  by_cases same : other = member
  · subst same
    cases known.symm.trans scored
    rw [List.filter_cons_of_pos (by simp), List.map_cons]
    cases recurs : step? other with
    | none =>
      have silent : firings.filter (·.1 = other) = [] := by
        rw [List.filter_eq_nil_iff]
        intro firing among own
        obtain ⟨later, found, -⟩ := rest.since firing among
        rw [of_decide_eq_true own, fires.once recurs] at found
        contradiction
      rw [silent, times_once come]
      rfl
    | some step =>
      obtain ⟨later, found, -, sum⟩ := fires.again recurs
      have fired := rest.fired found
      rw [recurs, sum] at fired
      rw [times_step (regular.steps known recurs).1 come, fired]
  · rw [List.filter_cons_of_neg (by simpa using Ne.symm same)]
    exact rest.fired (fires.others other same ▸ scored)

omit regular in
theorem leaves_cons (other : String) :
    Leaves now (step? other) (Dict.get? scores other) (Dict.get? left other) := by
  have leaves := rest.leaves other
  by_cases same : other = member
  · subst same
    rw [known]
    cases recurs : step? other with
    | none =>
      rw [recurs, fires.once recurs] at leaves
      generalize Dict.get? left other = left? at leaves
      cases leaves
      exact .once come
    | some step =>
      obtain ⟨later, found, isWhole, sum⟩ := fires.again recurs
      rw [recurs, found] at leaves
      generalize Dict.get? left other = left? at leaves
      cases leaves with
      | spared _ late =>
        refine .again (k := 1) isWhole (by omega) late (fun j less => ?_) Nat.one_pos
        obtain rfl : j = 0 := by omega
        omega
      | @again _ k _ last whole total late first fired =>
        refine .again (k := k + 1) whole ?_ late (fun j less => ?_) (Nat.succ_pos k)
        · rw [total, sum, Int.natCast_add, Int.add_mul]
          omega
        · cases j with
          | zero => omega
          | succ j =>
            have before := first j (by omega)
            rw [Int.natCast_add, Int.add_mul]
            omega
  · rw [← fires.others other same]
    exact leaves

/-- A member that is ready before all others fires, and then the rest. -/
theorem caughtUp_cons
    (first : ∀ other ready, Dict.get? scores other = some ready → other ≠ member → ready.whole ≤ now →
      Firing.Before (member, score) (other, ready)) :
    CaughtUp now step? scores ((member, score) :: firings) left where
  inOrder := List.pairwise_cons.mpr ⟨inOrder_cons regular known come fires rest first, rest.inOrder⟩
  since := by
    refine List.forall_mem_cons.mpr ⟨⟨score, known, .inl rfl⟩, fun firing among => ?_⟩
    obtain ⟨earlier, scored, own, others⟩ := since_cons regular known fires rest among
    by_cases same : firing.1 = member
    · exact ⟨score, same ▸ known, .inr (own same)⟩
    · exact ⟨earlier, scored, others same⟩
  fired := fired_cons regular known come fires rest
  leaves := leaves_cons known come fires rest

end Cons

end JobQueue.Schedule
