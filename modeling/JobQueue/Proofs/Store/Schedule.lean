import JobQueue.Store.Entry

/-! # What a schedule gives first

Of the members that are scored at most so high, the first in the order of the schedule is given. A dictionary
whose keys are distinct is a function on them, and stays one when it is written to.
-/

namespace JobQueue

namespace Dict

variable {α : Type} {dict : Dict α} {key : String}

theorem nodup_keys_insert (distinct : (keys dict).Nodup) (key : String) (value : α) :
    (keys (insert dict key value)).Nodup := by
  rw [keys_insert]
  split
  · exact distinct
  · next new =>
    rw [List.nodup_append]
    refine ⟨distinct, List.nodup_cons.mpr ⟨List.not_mem_nil, List.nodup_nil⟩, ?_⟩
    rintro name member _ single rfl
    cases List.mem_singleton.mp single
    exact new member

theorem nodup_keys_erase (distinct : (keys dict).Nodup) (key : String) : (keys (erase dict key)).Nodup :=
  distinct.sublist (List.filter_sublist.map _)

end Dict

namespace Schedule

theorem precedes_iff {a b : String × Binary64} :
    precedes a b = true ↔ a.2.rank < b.2.rank ∨ a.2.rank = b.2.rank ∧ a.1 ≤ b.1 := by
  simp [precedes]

theorem precedes_refl (a : String × Binary64) : precedes a a = true :=
  precedes_iff.mpr (.inr ⟨rfl, String.le_refl _⟩)

theorem precedes_of_not {a b : String × Binary64} (after : ¬ precedes a b = true) : precedes b a = true := by
  rw [precedes_iff] at after ⊢
  rcases Int.lt_trichotomy a.2.rank b.2.rank with less | same | more
  · exact absurd (.inl less) after
  · refine .inr ⟨same.symm, ?_⟩
    rcases String.le_total a.1 b.1 with le | ge
    · exact absurd (.inr ⟨same, le⟩) after
    · exact ge
  · exact .inl more

theorem precedes_trans {a b c : String × Binary64} (first : precedes a b = true)
    (second : precedes b c = true) : precedes a c = true := by
  rw [precedes_iff] at first second ⊢
  rcases first with less | ⟨same, le⟩
  · rcases second with more | ⟨equal, -⟩
    · exact .inl (Int.lt_trans less more)
    · exact .inl (equal ▸ less)
  · rcases second with more | ⟨equal, next⟩
    · exact .inl (same ▸ more)
    · exact .inr ⟨same.trans equal, String.le_trans le next⟩

variable {limit : Binary64} {scores : Dict Binary64}

/-- Nothing is given only if every member is scored higher. -/
theorem firstUpTo_eq_none (nothing : firstUpTo limit scores = none) :
    ∀ entry ∈ scores, ¬ entry.2.atMost limit = true := by
  induction scores with
  | nil => exact List.forall_mem_nil _
  | cons entry rest ih =>
    rw [firstUpTo] at nothing
    split at nothing
    · split at nothing <;> contradiction
    · next late => exact List.forall_mem_cons.mpr ⟨late, ih nothing⟩

/-- What is given is scored at most so high, and precedes all others that are. -/
theorem firstUpTo_eq_some {entry : String × Binary64} (given : firstUpTo limit scores = some entry) :
    entry ∈ scores ∧ entry.2.atMost limit = true ∧
      ∀ other ∈ scores, other.2.atMost limit = true → precedes entry other = true := by
  induction scores generalizing entry with
  | nil => contradiction
  | cons head rest ih =>
    rw [firstUpTo] at given
    split at given
    · next early =>
      split at given
      · next other found =>
        obtain ⟨member, ready, first⟩ := ih found
        cases given
        split
        · next before =>
          refine ⟨List.mem_cons_self .., early, List.forall_mem_cons.mpr ⟨fun _ => precedes_refl _, ?_⟩⟩
          exact fun third among upTo => precedes_trans before (first third among upTo)
        · next after =>
          refine ⟨List.mem_cons_of_mem _ member, ready, List.forall_mem_cons.mpr ⟨fun _ => ?_, first⟩⟩
          exact precedes_of_not after
      · next late =>
        cases given
        refine ⟨List.mem_cons_self .., early, List.forall_mem_cons.mpr ⟨fun _ => precedes_refl _, ?_⟩⟩
        exact fun third among upTo => absurd upTo (firstUpTo_eq_none late third among)
    · next late =>
      obtain ⟨member, ready, first⟩ := ih given
      refine ⟨List.mem_cons_of_mem _ member, ready, List.forall_mem_cons.mpr ⟨fun upTo => ?_, first⟩⟩
      exact absurd upTo late

end Schedule

end JobQueue
