import JobQueue.Binary64.Read
import JobQueue.Proofs.Store.Lasting

/-! # A schedule and its frequencies

The frequencies of recurring payloads are at a key of their own, beside the sorted set that schedules the
payloads. The two fit while every payload that has a frequency is scheduled. Writes keep them so, as long as
a payload gets its frequency after its place in the schedule, and loses it before.
-/

namespace JobQueue.Queue

/-- Whether a key is bound. -/
def bound {α : Type} (dict : Dict α) (key : String) : Prop := (Dict.get? dict key).isSome = true

/-- Every payload that has a frequency is scheduled, and every frequency spells a number. -/
structure Schedules (scores : Dict Binary64) (frequencies : Dict String) : Prop where
  scheduled : ∀ payload, bound frequencies payload → bound scores payload
  spelled : ∀ payload text, Dict.get? frequencies payload = some text → (Binary64.ofText? text).isSome

/-- What a queue and its companion hold: no frequencies, or a schedule of all payloads that have one. -/
inductive Fits : Option Entry → Option Entry → Prop
  | alone (queue? : Option Entry) : Fits queue? none
  | recurring {scores : Dict Binary64} {frequencies : Dict String} (filled : frequencies ≠ [])
    (schedules : Schedules scores frequencies) : Fits (some (.sortedSet scores)) (some (.hash frequencies))

section Bound

variable {α : Type}

theorem bound_insert {dict : Dict α} {key other : String} {value : α} :
    bound (Dict.insert dict key value) other ↔ key = other ∨ bound dict other := by
  rw [bound, Dict.get?_insert]
  split
  · next same => simp [same]
  · next differ => simp [differ, bound]

theorem bound_erase {dict : Dict α} {key other : String} :
    bound (Dict.erase dict key) other ↔ key ≠ other ∧ bound dict other := by
  rw [bound, Dict.get?_erase]
  split
  · next same => simp [same]
  · next differ => simp [differ, bound]

theorem bound_head (entry : String × α) (rest : Dict α) : bound (entry :: rest) entry.1 := by
  rw [bound, Dict.get?_cons, if_pos rfl]
  rfl

theorem ne_nil_of_bound {dict : Dict α} {key : String} (found : bound dict key) : dict ≠ [] := by
  rintro rfl
  contradiction

end Bound

theorem kept_of_bound {scores : Dict Binary64} {payload : String} (member : bound scores payload) :
    (Entry.sortedSet scores).kept = some (.sortedSet scores) :=
  kept_of_not_isEmpty (List.isEmpty_eq_false_iff.mpr (ne_nil_of_bound member))

/-- What is scheduled is a member of a sorted set. -/
theorem bound_of_schedule {key payload : String} {score : Binary64} {held? : Option Entry} {entry : Entry}
    (applies : Write.apply? (.schedule key score payload) held? = some entry) :
    ∃ scores, entry = .sortedSet scores ∧ bound scores payload := by
  cases held? with
  | none =>
    cases applies
    exact ⟨_, rfl, bound_head _ _⟩
  | some held =>
    cases held with
    | sortedSet scores =>
      cases applies
      exact ⟨_, rfl, bound_insert.mpr (.inl rfl)⟩
    | _ => contradiction

theorem list_of_prepend {key value : String} {held? : Option Entry} {entry : Entry}
    (applies : Write.apply? (.prepend key value) held? = some entry) :
    ∃ items, entry = .list (value :: items) := by
  cases held? with
  | none =>
    cases applies
    exact ⟨[], rfl⟩
  | some held =>
    cases held with
    | list items =>
      cases applies
      exact ⟨items, rfl⟩
    | _ => contradiction

/-- A frequency that is dropped is gone. -/
theorem not_bound_of_dropField {key payload : String} {held? : Option Entry} {entry : Entry}
    (applies : Write.apply? (.dropField key payload) held? = some entry) :
    ∀ frequencies, entry.kept = some (.hash frequencies) → ¬ bound frequencies payload := by
  intro frequencies kept found
  rw [eq_of_kept kept] at applies
  cases held? with
  | none =>
    cases applies
    contradiction
  | some held =>
    cases held with
    | hash fields =>
      cases applies
      exact (bound_erase.mp found).1 rfl
    | _ => contradiction

namespace Schedules

variable {scores : Dict Binary64} {frequencies : Dict String} {payload : String}

theorem score (schedules : Schedules scores frequencies) (score : Binary64) :
    Schedules (Dict.insert scores payload score) frequencies where
  scheduled other found := bound_insert.mpr (.inr (schedules.scheduled other found))
  spelled := schedules.spelled

/-- A payload without a frequency may go. -/
theorem unscore (schedules : Schedules scores frequencies) (once : ¬ bound frequencies payload) :
    Schedules (Dict.erase scores payload) frequencies where
  scheduled other found := bound_erase.mpr ⟨fun same => once (same ▸ found), schedules.scheduled other found⟩
  spelled := schedules.spelled

theorem putOff (schedules : Schedules scores frequencies) (frequency : Binary64) :
    Schedules (Schedule.putOff scores payload frequency) frequencies := by
  unfold Schedule.putOff
  split
  · exact schedules.score _
  · exact schedules

/-- A payload that is scheduled may get a frequency. -/
theorem repeated (schedules : Schedules scores frequencies) (scheduled : bound scores payload) {text : String}
    (spelled : (Binary64.ofText? text).isSome) : Schedules scores (Dict.insert frequencies payload text) where
  scheduled other found := by
    rcases bound_insert.mp found with same | found
    · exact same ▸ scheduled
    · exact schedules.scheduled other found
  spelled other value found := by
    rw [Dict.get?_insert] at found
    split at found
    · cases found
      exact spelled
    · exact schedules.spelled other value found

theorem stopped (schedules : Schedules scores frequencies) :
    Schedules scores (Dict.erase frequencies payload) where
  scheduled other found := schedules.scheduled other (bound_erase.mp found).2
  spelled other value found := by
    rw [Dict.get?_erase] at found
    split at found
    · contradiction
    · exact schedules.spelled other value found

/-- A schedule of payloads that have frequencies is not empty. -/
theorem keptScores (schedules : Schedules scores frequencies) (filled : frequencies ≠ []) :
    Fits (Entry.sortedSet scores).kept (some (.hash frequencies)) := by
  obtain ⟨first, rest, rfl⟩ := List.exists_cons_of_ne_nil filled
  rw [kept_of_bound (schedules.scheduled _ (bound_head first rest))]
  exact .recurring filled schedules

/-- Frequencies that are all dropped are no companion. -/
theorem keptFrequencies (schedules : Schedules scores frequencies) :
    Fits (some (.sortedSet scores)) (Entry.hash frequencies).kept := by
  unfold Entry.kept
  split
  · exact .alone _
  · next filled => exact .recurring (fun empty => filled (List.isEmpty_iff.mpr empty)) schedules

end Schedules

namespace Fits

variable {queue? companion? : Option Entry} {entry : Entry} {key payload : String}

/-- A queue that is no sorted set has no frequencies, and may become anything. -/
theorem other (fits : Fits queue? companion?) (other : ∀ scores, queue? ≠ some (.sortedSet scores))
    (next? : Option Entry) : Fits next? companion? := by
  cases fits with
  | alone => exact .alone _
  | recurring => exact absurd rfl (other _)

theorem schedule (fits : Fits queue? companion?) {score : Binary64}
    (applies : Write.apply? (.schedule key score payload) queue? = some entry) :
    Fits entry.kept companion? := by
  cases fits with
  | alone => exact .alone _
  | recurring filled schedules =>
    cases applies
    exact (schedules.score score).keptScores filled

theorem unschedule (fits : Fits queue? companion?)
    (once : ∀ frequencies, companion? = some (.hash frequencies) → ¬ bound frequencies payload)
    (applies : Write.apply? (.unschedule key payload) queue? = some entry) : Fits entry.kept companion? := by
  cases fits with
  | alone => exact .alone _
  | recurring filled schedules =>
    cases applies
    exact (schedules.unscore (once _ rfl)).keptScores filled

theorem setField (fits : Fits queue? companion?) {scores : Dict Binary64} {text : String}
    (held : queue? = some (.sortedSet scores)) (scheduled : bound scores payload)
    (spelled : (Binary64.ofText? text).isSome)
    (applies : Write.apply? (.setField key payload text) companion? = some entry) :
    Fits queue? entry.kept := by
  cases fits with
  | alone =>
    cases applies
    subst held
    refine .recurring (List.cons_ne_nil _ _) ?_
    have nothing : Schedules scores [] := by
      constructor
      · intro payload found
        contradiction
      · intro payload text found
        contradiction
    exact nothing.repeated scheduled spelled
  | recurring filled schedules =>
    cases applies
    cases held
    exact (schedules.repeated scheduled spelled).keptFrequencies

theorem dropField (fits : Fits queue? companion?)
    (applies : Write.apply? (.dropField key payload) companion? = some entry) : Fits queue? entry.kept := by
  cases fits with
  | alone =>
    cases applies
    exact .alone _
  | recurring filled schedules =>
    cases applies
    exact schedules.stopped.keptFrequencies

/-- A payload that is taken stays scheduled if it has a frequency. -/
theorem taken {scores : Dict Binary64} (fits : Fits (some (.sortedSet scores)) companion?)
    {frequency? : Option Binary64} :
    (∀ frequencies, companion? = some (.hash frequencies) →
      frequency? = (Dict.get? frequencies payload).bind Binary64.ofText?) →
    Fits (Entry.sortedSet (match frequency? with
      | some frequency => Schedule.putOff scores payload frequency
      | none => Dict.erase scores payload)).kept companion? := by
  intro read
  cases fits with
  | alone => exact .alone _
  | @recurring _ frequencies filled schedules =>
    rw [read frequencies rfl]
    cases found : Dict.get? frequencies payload with
    | none =>
      have once : ¬ bound frequencies payload := by simp [bound, found]
      exact (schedules.unscore once).keptScores filled
    | some text =>
      obtain ⟨frequency, spelled⟩ := Option.isSome_iff_exists.mp (schedules.spelled payload text found)
      rw [Option.bind_some, spelled]
      exact (schedules.putOff frequency).keptScores filled

end Fits

end JobQueue.Queue
