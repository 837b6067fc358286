import Mathlib.Data.List.Induction
import Mathlib.Logic.Basic
import JobQueue.CommandTable
import JobQueue.Proofs.Store.Schedule
import JobQueue.Proofs.Text.Bytes

/-! # What the names of a command table are bound to

A table follows the script that it was put together by: each name is bound by the last step that names it, and
an alias to what its target was bound to at that step, whatever becomes of the target later. A script gets
stuck at the first alias whose target is not bound, and for no other reason. What a descriptor resolves to
depends on the script alone: its class may be unbound, may take another number of arguments, or else makes
the command, in the name of the class and not of what that is an alias of. Which of these it was can be told
from the refusal as long as makers refuse nothing but arguments, in the name that they are called by.
-/

namespace JobQueue

/-! ## Scripts -/

/-- The names that a step binds. -/
def Registration.Names (name : String) : Registration → Prop
  | .defaults => name = AdminCommand.pauseName ∨ name = AdminCommand.shutdownName
  | .register own _ | .alias own _ => name = own

mutual

/-- What a name is bound to behind some steps: the last step that names it decides. -/
inductive Bound : List Registration → String → CommandEntry → Prop
  | last {before after : List Registration} {step : Registration} {name : String} {entry : CommandEntry}
      (binds : Binds before step name entry) (others : ∀ later ∈ after, ¬ later.Names name) :
      Bound (before ++ step :: after) name entry

/-- What the names of a step are bound to by it, behind the steps before it. -/
inductive Binds : List Registration → Registration → String → CommandEntry → Prop
  | pause {before : List Registration} : Binds before .defaults AdminCommand.pauseName ⟨1, .pause 0⟩
  | shutdown {before : List Registration} :
      Binds before .defaults AdminCommand.shutdownName ⟨1, .shutdown 0⟩
  | register {before : List Registration} {name : String} {entry : CommandEntry} :
      Binds before (.register name entry) name entry
  /-- An alias takes what its target is bound to at that moment. -/
  | aliased {before : List Registration} {name target : String} {entry : CommandEntry}
      (bound : Bound before target entry) : Binds before (.alias name target) name entry

end

/-- Every alias of a script has a target that is bound by then. -/
def Registration.Complete (steps : List Registration) : Prop :=
  ∀ before name target after, steps = before ++ .alias name target :: after →
    ∃ entry, Bound before target entry

section Scripts

variable {steps : List Registration} {step : Registration} {name : String} {entry : CommandEntry}

theorem Binds.names (binds : Binds steps step name entry) : step.Names name := by
  cases binds with
  | pause => exact .inl rfl
  | shutdown => exact .inr rfl
  | register | aliased => rfl

/-- A step somewhere in a script with another step at its end is that one, or comes before it. -/
theorem Registration.eq_concat_iff {before after : List Registration} {last : Registration} :
    steps ++ [last] = before ++ step :: after ↔
      steps = before ∧ last = step ∧ after = [] ∨
        ∃ between, after = between ++ [last] ∧ steps = before ++ step :: between := by
  constructor
  · intro whole
    rcases List.eq_nil_or_concat after with rfl | ⟨between, other, rfl⟩
    · obtain ⟨rfl, same⟩ := List.append_inj' whole rfl
      exact .inl ⟨rfl, (List.cons.inj same).1, rfl⟩
    · rw [List.concat_eq_append, ← List.cons_append, ← List.append_assoc] at whole
      obtain ⟨rfl, same⟩ := List.append_inj' whole rfl
      exact .inr ⟨between, by rw [List.concat_eq_append, same], rfl⟩
  · rintro (⟨rfl, rfl, rfl⟩ | ⟨between, rfl, rfl⟩)
    · rfl
    · simp

theorem Bound.nil : ¬ Bound [] name entry := by
  generalize empty : [] = steps
  intro bound
  cases bound
  exact absurd empty (by simp)

/-- One more step binds its own names and leaves all others. -/
theorem bound_concat_iff : Bound (steps ++ [step]) name entry ↔
    Binds steps step name entry ∨ ¬ step.Names name ∧ Bound steps name entry := by
  constructor
  · generalize whole : steps ++ [step] = script
    intro bound
    obtain ⟨binds, others⟩ := bound
    rcases Registration.eq_concat_iff.mp whole with ⟨rfl, rfl, -⟩ | ⟨between, rfl, rfl⟩
    · exact .inl binds
    · exact .inr ⟨others step (by simp), .last binds fun later member => others later (by simp [member])⟩
  · rintro (binds | ⟨other, bound⟩)
    · exact .last binds nofun
    · obtain ⟨binds, others⟩ := bound
      rw [List.append_assoc, List.cons_append]
      refine .last binds fun later member => ?_
      rcases List.mem_append.mp member with among | last
      · exact others later among
      · rwa [List.mem_singleton.mp last]

/-- A script stays complete with a step that is no alias, or an alias of a name that is bound. -/
theorem Registration.complete_concat_iff : Complete (steps ++ [step]) ↔
    Complete steps ∧ ∀ name target, step = .alias name target → ∃ entry, Bound steps target entry := by
  constructor
  · intro complete
    refine ⟨fun before name target after whole => ?_, fun name target same => ?_⟩
    · exact complete before name target (after ++ [step]) (by simp [whole])
    · exact complete steps name target [] (by rw [same])
  · rintro ⟨complete, last⟩ before name target after whole
    rcases eq_concat_iff.mp whole with ⟨rfl, same, -⟩ | ⟨between, -, earlier⟩
    · exact last name target same
    · exact complete before name target between earlier

end Scripts

/-! ## Tables of scripts -/

namespace CommandTable

variable {table next : CommandTable} {steps : List Registration} {step : Registration}

/-- A table that binds each name, and once, to what it is bound to behind some steps. -/
structure Follows (steps : List Registration) (table : CommandTable) : Prop where
  get?_iff {name : String} {entry : CommandEntry} :
    Dict.get? table name = some entry ↔ Bound steps name entry
  distinct : (Dict.keys table).Nodup

theorem follows_empty : empty.Follows [] where
  get?_iff := iff_of_false nofun Bound.nil
  distinct := List.nodup_nil

theorem ofRegistrations_concat (steps : List Registration) (step : Registration) :
    ofRegistrations (steps ++ [step]) = ofRegistrations steps >>= fun table => table.apply step := by
  rw [ofRegistrations, List.foldlM_append]
  exact bind_congr fun table => bind_pure _

/-- A table that a step has bound names in goes on following the script. -/
theorem Follows.concat (follows : table.Follows steps) (distinct : (Dict.keys next).Nodup)
    (own : ∀ {name : String}, step.Names name →
      ∀ entry, Dict.get? next name = some entry ↔ Binds steps step name entry)
    (others : ∀ {name : String}, ¬ step.Names name → Dict.get? next name = Dict.get? table name) :
    next.Follows (steps ++ [step]) where
  get?_iff {name entry} := by
    rw [bound_concat_iff]
    by_cases named : step.Names name
    · rw [own named]
      exact ⟨.inl, fun either => either.elim id fun other => absurd named other.1⟩
    · rw [others named, follows.get?_iff]
      refine ⟨fun bound => .inr ⟨named, bound⟩, fun either => ?_⟩
      exact either.elim (fun binds => absurd binds.names named) And.right
  distinct := distinct

theorem Follows.registered (follows : table.Follows steps) {name : String} {entry : CommandEntry}
    (names : ∀ {other : String}, step.Names other ↔ other = name)
    (binds : ∀ {other : CommandEntry}, Binds steps step name other ↔ other = entry) :
    (table.register name entry).Follows (steps ++ [step]) := by
  refine follows.concat (Dict.nodup_keys_insert follows.distinct name entry) ?_ ?_
  · intro other named given
    rw [names.mp named, CommandTable.register, Dict.get?_insert, if_pos rfl, binds, Option.some_inj]
    exact eq_comm
  · intro other foreign
    rw [CommandTable.register, Dict.get?_insert, if_neg fun same => foreign (names.mpr same.symm)]

/-- A table goes on following the script, step by step. -/
theorem Follows.apply (follows : table.Follows steps) (applied : table.apply step = .ok next) :
    next.Follows (steps ++ [step]) := by
  match step with
  | .defaults =>
    cases applied
    have differ : AdminCommand.pauseName ≠ AdminCommand.shutdownName := by decide
    refine follows.concat (Dict.nodup_keys_insert (Dict.nodup_keys_insert follows.distinct _ _) _ _) ?_ ?_
    · rintro name (rfl | rfl) entry
      · rw [registerDefaults, register, register, Dict.get?_insert, if_neg differ.symm, Dict.get?_insert,
          if_pos rfl, Option.some_inj]
        refine ⟨fun same => same ▸ .pause, fun binds => ?_⟩
        generalize named : AdminCommand.pauseName = name at binds
        cases binds with
        | pause => rfl
        | shutdown => exact absurd named differ
      · rw [registerDefaults, register, register, Dict.get?_insert, if_pos rfl, Option.some_inj]
        refine ⟨fun same => same ▸ .shutdown, fun binds => ?_⟩
        generalize named : AdminCommand.shutdownName = name at binds
        cases binds with
        | pause => exact absurd named.symm differ
        | shutdown => rfl
    · intro name foreign
      obtain ⟨pause, shutdown⟩ := not_or.mp foreign
      rw [registerDefaults, register, register, Dict.get?_insert, if_neg (Ne.symm shutdown), Dict.get?_insert,
        if_neg (Ne.symm pause)]
  | .register name entry =>
    cases applied
    refine follows.registered Iff.rfl fun {other} => ⟨fun binds => ?_, fun same => same ▸ .register⟩
    cases binds
    rfl
  | .alias name target =>
    simp only [CommandTable.apply, alias?] at applied
    split at applied
    · next entry found =>
      cases applied
      refine follows.registered Iff.rfl fun {other} => ⟨fun binds => ?_, fun same => ?_⟩
      · cases binds with
        | aliased bound => exact Option.some.inj ((follows.get?_iff.mpr bound).symm.trans found)
      · exact same ▸ .aliased (follows.get?_iff.mp found)
    · contradiction

theorem Follows.unbound_iff (follows : table.Follows steps) {name : String} :
    Dict.get? table name = none ↔ ∀ entry, ¬ Bound steps name entry := by
  rw [Option.eq_none_iff_forall_ne_some]
  exact forall_congr' fun entry => not_congr follows.get?_iff

/-- A step fails only as an alias whose target is not bound. -/
theorem Follows.apply_eq_error_iff (follows : table.Follows steps) {cause : ResolveError} :
    table.apply step = .error cause ↔ ∃ name target, step = .alias name target ∧
      (∀ entry, ¬ Bound steps target entry) ∧ cause = .unknownCommand target := by
  match step with
  | .defaults => exact iff_of_false nofun nofun
  | .register name entry => exact iff_of_false nofun nofun
  | .alias name target =>
    simp only [CommandTable.apply, alias?]
    split
    · next entry found =>
      refine iff_of_false nofun ?_
      rintro ⟨_, _, same, unbound, -⟩
      cases same
      exact unbound entry (follows.get?_iff.mp found)
    · next missing =>
      rw [Except.error.injEq]
      constructor
      · rintro rfl
        exact ⟨name, target, rfl, follows.unbound_iff.mp missing, rfl⟩
      · rintro ⟨_, _, same, -, rfl⟩
        cases same
        rfl

/-- A script gets stuck at an alias whose target is not bound by then; the aliases before it are. -/
def Stuck (steps : List Registration) (cause : ResolveError) : Prop :=
  ∃ before name target after, steps = before ++ .alias name target :: after ∧
    Registration.Complete before ∧ (∀ entry, ¬ Bound before target entry) ∧ cause = .unknownCommand target

/-- A complete script makes a table that follows it, and any other gets stuck. -/
theorem ofRegistrations_cases (steps : List Registration) :
    (∃ table, ofRegistrations steps = .ok table ∧ table.Follows steps ∧ Registration.Complete steps) ∨
      ∃ cause, ofRegistrations steps = .error cause ∧ Stuck steps cause := by
  induction steps using List.reverseRecOn with
  | nil => exact .inl ⟨empty, rfl, follows_empty, fun before _ _ _ whole => absurd whole (by simp)⟩
  | append_singleton steps step ih =>
    rw [ofRegistrations_concat]
    rcases ih with ⟨table, made, follows, complete⟩ | ⟨cause, failed, stuck⟩
    · rw [made]
      cases applied : table.apply step with
      | ok next =>
        refine .inl ⟨next, applied, follows.apply applied, ?_⟩
        refine Registration.complete_concat_iff.mpr ⟨complete, ?_⟩
        rintro name target rfl
        by_contra unbound
        have failed := follows.apply_eq_error_iff.mpr ⟨name, target, rfl, not_exists.mp unbound, rfl⟩
        rw [applied] at failed
        contradiction
      | error cause =>
        obtain ⟨name, target, rfl, unbound, rfl⟩ := follows.apply_eq_error_iff.mp applied
        exact .inr ⟨_, applied, steps, name, target, [], rfl, complete, unbound, rfl⟩
    · rw [failed]
      obtain ⟨before, name, target, after, rfl, rest⟩ := stuck
      exact .inr ⟨cause, rfl, before, name, target, after ++ [step], by simp, rest⟩

/-- A script that gets stuck makes no table. -/
theorem ofRegistrations_of_stuck {cause : ResolveError} (stuck : Stuck steps cause) :
    ofRegistrations steps = .error cause := by
  obtain ⟨before, name, target, after, rfl, complete, unbound, rfl⟩ := stuck
  rcases ofRegistrations_cases before with
    ⟨table, made, follows, -⟩ | ⟨_, -, first, early, aim, rest, rfl, -, missing, -⟩
  · have failed := follows.apply_eq_error_iff.mpr ⟨name, target, rfl, unbound, rfl⟩
    rw [ofRegistrations] at made ⊢
    rw [List.foldlM_append, made]
    change table.apply _ >>= _ = _
    rw [failed]
    rfl
  · obtain ⟨entry, bound⟩ := complete first early aim rest rfl
    exact absurd bound (missing entry)

theorem ofRegistrations_eq_error_iff {cause : ResolveError} :
    ofRegistrations steps = .error cause ↔ Stuck steps cause := by
  refine ⟨fun failed => ?_, ofRegistrations_of_stuck⟩
  rcases ofRegistrations_cases steps with ⟨table, made, -⟩ | ⟨other, stuckToo, stuck⟩
  · rw [made] at failed
    contradiction
  · rw [stuckToo] at failed
    exact Except.error.inj failed ▸ stuck

theorem Follows.of_eq_ok (made : ofRegistrations steps = .ok table) : table.Follows steps := by
  rcases ofRegistrations_cases steps with ⟨other, same, follows, -⟩ | ⟨cause, failed, -⟩
  · rw [same] at made
    exact Except.ok.inj made ▸ follows
  · rw [failed] at made
    contradiction

theorem exists_ofRegistrations_iff :
    (∃ table, ofRegistrations steps = .ok table) ↔ Registration.Complete steps := by
  rcases ofRegistrations_cases steps with ⟨table, made, -, complete⟩ | ⟨cause, failed, stuck⟩
  · exact iff_of_true ⟨table, made⟩ complete
  · refine iff_of_false ?_ fun complete => ?_
    · rintro ⟨table, made⟩
      rw [failed] at made
      contradiction
    · obtain ⟨before, name, target, after, rfl, -, unbound, -⟩ := stuck
      obtain ⟨entry, bound⟩ := complete before name target after rfl
      exact unbound entry bound

/-! ## Names and descriptors -/

theorem mem_names_iff (table : CommandTable) (name : String) :
    name ∈ table.names ↔ (Dict.get? table name).isSome = true := by
  rw [names, List.mem_mergeSort, ← not_iff_not, ← Dict.get?_eq_none_iff, Option.not_isSome_iff_eq_none]

/-- The names of a table are listed once each, in the order of their bytes. -/
theorem names_increasing (distinct : (Dict.keys table).Nodup) :
    table.names.Pairwise fun first second => Text.bytes first < Text.bytes second := by
  have sorted : table.names.Pairwise fun first second => decide (first ≤ second) = true :=
    List.pairwise_mergeSort (fun a b c => by simpa using String.le_trans)
      (fun a b => by simpa using String.le_total a b) _
  have once : table.names.Pairwise (· ≠ ·) := (List.mergeSort_perm _ _).nodup_iff.mpr distinct
  refine sorted.imp₂ (fun first second le differ => ?_) once
  exact Text.bytes_lt_iff.mpr (Std.lt_of_le_of_ne (of_decide_eq_true le) differ)

end CommandTable

/-- An entry whose maker, given as many arguments as it takes, gives a command or refuses an argument in the
name that it is called by. -/
def CommandEntry.Candid (entry : CommandEntry) : Prop :=
  ∀ name args, args.length = entry.arity → (∃ command, entry.make name args = .ok command) ∨
    ∃ index expected found, entry.make name args = .error (.argumentType name index expected found)

/-- A step that registers nothing but such entries. -/
def Registration.Candid : Registration → Prop
  | .register _ entry => entry.Candid
  | .defaults | .alias _ _ => True

theorem flagArgument_cases (name : String) (args : List Value) (index : Nat) :
    (∃ flag, flagArgument name args index = .ok flag) ∨
      ∃ found, flagArgument name args index = .error (.argumentType name index "boolean" found) := by
  rw [flagArgument]
  split
  · exact .inl ⟨_, rfl⟩
  · exact .inr ⟨_, rfl⟩

/-- A maker of one flag, wherever the flag is and however many arguments there are. -/
theorem CommandEntry.candid_of_flag (arity index : Nat) (command : Bool → AdminCommand) :
    (CommandEntry.mk arity fun name args => (flagArgument name args index).map command).Candid := by
  intro name args _
  dsimp only
  rcases flagArgument_cases name args index with ⟨flag, given⟩ | ⟨found, refused⟩
  · rw [given]
    exact .inl ⟨_, rfl⟩
  · rw [refused]
    exact .inr ⟨_, _, _, rfl⟩

theorem CommandEntry.candid_pause (arity index : Nat) : (CommandEntry.mk arity (.pause index)).Candid :=
  candid_of_flag arity index .pause

theorem CommandEntry.candid_shutdown (arity index : Nat) : (CommandEntry.mk arity (.shutdown index)).Candid :=
  candid_of_flag arity index .shutdown

/-- Aliases pass on what has been registered. -/
theorem Bound.candid {steps : List Registration} (candid : ∀ step ∈ steps, step.Candid) {name : String}
    {entry : CommandEntry} (bound : Bound steps name entry) : entry.Candid := by
  induction steps using List.reverseRecOn generalizing name with
  | nil => exact absurd bound nil
  | append_singleton steps step ih =>
    have earlier : ∀ step ∈ steps, step.Candid := fun step member => candid step (by simp [member])
    rcases bound_concat_iff.mp bound with binds | ⟨-, bound⟩
    · cases binds with
      | pause => exact CommandEntry.candid_pause 1 0
      | shutdown => exact CommandEntry.candid_shutdown 1 0
      | register => exact candid (.register name entry) (by simp)
      | aliased target => exact ih earlier target
    · exact ih earlier bound

namespace CommandTable

/-- A table that is decided by a script, and what it resolves descriptors to. -/
structure Decided (steps : List Registration) (table : CommandTable) : Prop where
  /-- A name is bound to what the last step that names it binds it to. -/
  bound_iff (name : String) (entry : CommandEntry) :
    Dict.get? table name = some entry ↔ Bound steps name entry
  names_iff (name : String) : name ∈ table.names ↔ ∃ entry, Bound steps name entry
  increasing : table.names.Pairwise fun first second => Text.bytes first < Text.bytes second
  contains_iff (name : String) : table.contains name = true ↔ name ∈ table.names
  unbound (descriptor : Job) : (∀ entry, ¬ Bound steps descriptor.className entry) →
    table.resolve descriptor = .error (.unknownCommand descriptor.className)
  /-- The number of arguments is looked at before any of them is. -/
  miscounted (descriptor : Job) (entry : CommandEntry) : Bound steps descriptor.className entry →
    descriptor.args.length ≠ entry.arity →
      table.resolve descriptor = .error (.arity descriptor.className entry.arity descriptor.args.length)
  /-- The class of the descriptor is what the maker is told, whichever name it was registered by. -/
  made (descriptor : Job) (entry : CommandEntry) : Bound steps descriptor.className entry →
    descriptor.args.length = entry.arity →
      table.resolve descriptor = entry.make descriptor.className descriptor.args
  /-- With makers that are candid, the kind of a refusal tells its cause. -/
  lookup_iff (candid : ∀ step ∈ steps, step.Candid) (descriptor : Job) :
    (∃ name, table.resolve descriptor = .error (.unknownCommand name)) ↔
      ∀ entry, ¬ Bound steps descriptor.className entry
  arity_iff (candid : ∀ step ∈ steps, step.Candid) (descriptor : Job) :
    (∃ name expected found, table.resolve descriptor = .error (.arity name expected found)) ↔
      ∃ entry, Bound steps descriptor.className entry ∧ descriptor.args.length ≠ entry.arity
  otherwise (candid : ∀ step ∈ steps, step.Candid) (descriptor : Job) (entry : CommandEntry) :
    Bound steps descriptor.className entry → descriptor.args.length = entry.arity →
      (∃ command, table.resolve descriptor = .ok command) ∨ ∃ index expected found,
        table.resolve descriptor = .error (.argumentType descriptor.className index expected found)

section Follows

variable {table : CommandTable} {steps : List Registration} (follows : table.Follows steps)

include follows

theorem Follows.resolve_of_unbound (descriptor : Job)
    (unbound : ∀ entry, ¬ Bound steps descriptor.className entry) :
    table.resolve descriptor = .error (.unknownCommand descriptor.className) := by
  simp only [resolve, follows.unbound_iff.mpr unbound]

theorem Follows.resolve_of_bound (descriptor : Job) {entry : CommandEntry}
    (bound : Bound steps descriptor.className entry) :
    table.resolve descriptor =
      if descriptor.args.length = entry.arity then entry.make descriptor.className descriptor.args
      else .error (.arity descriptor.className entry.arity descriptor.args.length) := by
  simp only [resolve, follows.get?_iff.mpr bound]

/-- With makers that are candid, a descriptor has one of four outcomes. -/
theorem Follows.resolve_cases (candid : ∀ step ∈ steps, step.Candid) (descriptor : Job) :
    ((∀ entry, ¬ Bound steps descriptor.className entry) ∧
        table.resolve descriptor = .error (.unknownCommand descriptor.className)) ∨
      ∃ entry, Bound steps descriptor.className entry ∧
        (descriptor.args.length ≠ entry.arity ∧ table.resolve descriptor =
            .error (.arity descriptor.className entry.arity descriptor.args.length) ∨
          descriptor.args.length = entry.arity ∧ ((∃ command, table.resolve descriptor = .ok command) ∨
            ∃ index expected found, table.resolve descriptor =
              .error (.argumentType descriptor.className index expected found))) := by
  by_cases unbound : ∀ entry, ¬ Bound steps descriptor.className entry
  · exact .inl ⟨unbound, follows.resolve_of_unbound descriptor unbound⟩
  obtain ⟨entry, bound⟩ := not_forall_not.mp unbound
  refine .inr ⟨entry, bound, ?_⟩
  rw [follows.resolve_of_bound descriptor bound]
  by_cases counted : descriptor.args.length = entry.arity
  · rw [if_pos counted]
    exact .inr ⟨counted, bound.candid candid _ _ counted⟩
  · rw [if_neg counted]
    exact .inl ⟨counted, rfl⟩

theorem Follows.decided : table.Decided steps where
  bound_iff _ _ := follows.get?_iff
  names_iff name := by
    rw [mem_names_iff, Option.isSome_iff_exists]
    exact exists_congr fun entry => follows.get?_iff
  increasing := names_increasing follows.distinct
  contains_iff name := (mem_names_iff table name).symm
  unbound := follows.resolve_of_unbound
  miscounted descriptor _ bound differ := (follows.resolve_of_bound descriptor bound).trans (if_neg differ)
  made descriptor _ bound counted := (follows.resolve_of_bound descriptor bound).trans (if_pos counted)
  lookup_iff candid descriptor := by
    refine ⟨?_, fun unbound => ⟨_, follows.resolve_of_unbound descriptor unbound⟩⟩
    rintro ⟨name, refused⟩
    rcases follows.resolve_cases candid descriptor with
      ⟨unbound, -⟩ | ⟨entry, -, ⟨-, other⟩ | ⟨-, ⟨_, other⟩ | ⟨_, _, _, other⟩⟩⟩
    · exact unbound
    all_goals
      rw [other] at refused
      cases refused
  arity_iff candid descriptor := by
    refine ⟨?_, fun ⟨entry, bound, differ⟩ => ?_⟩
    · rintro ⟨name, expected, found, refused⟩
      rcases follows.resolve_cases candid descriptor with
        ⟨-, other⟩ | ⟨entry, bound, ⟨differ, -⟩ | ⟨-, ⟨_, other⟩ | ⟨_, _, _, other⟩⟩⟩
      · rw [other] at refused
        cases refused
      · exact ⟨entry, bound, differ⟩
      all_goals
        rw [other] at refused
        cases refused
    · exact ⟨_, _, _, (follows.resolve_of_bound descriptor bound).trans (if_neg differ)⟩
  otherwise candid descriptor entry bound counted := by
    rw [follows.resolve_of_bound descriptor bound, if_pos counted]
    exact bound.candid candid _ _ counted

end Follows

/-- A script makes a table just if every alias has a target that is bound by then; it gets stuck at the first
that has none; and the table is decided by the script. -/
theorem ofRegistrations_decided (steps : List Registration) :
    ((∃ table, ofRegistrations steps = .ok table) ↔ Registration.Complete steps) ∧
      (∀ cause, ofRegistrations steps = .error cause ↔ Stuck steps cause) ∧
      ∀ table, ofRegistrations steps = .ok table → table.Decided steps :=
  ⟨exists_ofRegistrations_iff, fun _ => ofRegistrations_eq_error_iff,
    fun _ made => (Follows.of_eq_ok made).decided⟩

/-- A name is registered anew behind an alias of it, and so is the alias, by way of itself. -/
def renamings : List Registration := [
  .defaults,
  .alias "Halt" AdminCommand.shutdownName,
  .alias "Stop" "Halt",
  .register "Halt" ⟨2, .pause 1⟩,
  .alias "Halt" "Halt",
  .register AdminCommand.shutdownName ⟨0, .pause 0⟩]

theorem candid_renamings : ∀ step ∈ renamings, step.Candid := by
  simp only [renamings, List.forall_mem_cons]
  exact ⟨trivial, trivial, trivial, CommandEntry.candid_pause 2 1, trivial, CommandEntry.candid_pause 0 0, nofun⟩

/-- The alias of the alias still shuts down, a target that comes too late is missing, and refusals tell their
causes. -/
theorem ofRegistrations_decided_renamings :
    (∃ table, ofRegistrations renamings = .ok table ∧ table.Decided renamings ∧
      table.names.Perm ["PauseCommand", "ShutdownCommand", "Halt", "Stop"] ∧
      table.resolve { className := "Stop", args := [.bool true] } = .ok (.shutdown true) ∧
      table.resolve { className := "Halt", args := [.null, .bool true] } = .ok (.pause true) ∧
      table.resolve { className := "ShutdownCommand", args := [] } =
        .error (.argumentType "ShutdownCommand" 0 "boolean" "missing") ∧
      (∀ entry, ¬ Bound renamings "Reboot" entry) ∧ (∃ entry, Bound renamings "Halt" entry ∧ 1 ≠ entry.arity)) ∧
    ofRegistrations (.alias "Stop" "Halt" :: renamings) = .error (.unknownCommand "Halt") ∧
      Stuck (.alias "Stop" "Halt" :: renamings) (.unknownCommand "Halt") := by
  obtain ⟨-, -, decided⟩ := ofRegistrations_decided renamings
  obtain ⟨-, stuck, -⟩ := ofRegistrations_decided (.alias "Stop" "Halt" :: renamings)
  refine ⟨⟨_, rfl, decided _ rfl, List.mergeSort_perm _ _, rfl, rfl, rfl, ?_, ?_⟩, rfl, (stuck _).mp rfl⟩
  · exact ((decided _ rfl).lookup_iff candid_renamings { className := "Reboot" }).mp ⟨"Reboot", rfl⟩
  · exact ((decided _ rfl).arity_iff candid_renamings { className := "Halt", args := [.bool true] }).mp
      ⟨"Halt", 2, 1, rfl⟩

/-- Makers that refuse for other reasons than their arguments or in another name, and the name of a command
that the defaults bind anew. -/
def wilfulMakers : List Registration := [
  .register "Lost" ⟨0, fun _ _ => .error (.unknownCommand "Found")⟩,
  .register "Short" ⟨0, fun name _ => .error (.arity name 1 0)⟩,
  .register "Late" ⟨1, fun _ _ => .error (.date "tomorrow" "")⟩,
  .register "Proxy" ⟨1, fun _ args => CommandMaker.pause 0 AdminCommand.pauseName args⟩,
  .register AdminCommand.pauseName ⟨2, .shutdown 0⟩,
  .defaults]

/-- Bound names that are called with as many arguments as they take are refused like unbound or miscounted
ones, for something else than an argument, or in another name; and the defaults decide for a name behind the
last step that registers it or an alias of that name. -/
theorem resolve_wilfulMakers :
    ∃ table, ofRegistrations wilfulMakers = .ok table ∧
      ["Lost", "Short", "Late", "Proxy", "PauseCommand"].map
          (fun name => (Dict.get? table name).map CommandEntry.arity) =
        [some 0, some 0, some 1, some 1, some 1] ∧
      table.resolve { className := "Lost" } = .error (.unknownCommand "Found") ∧
      table.resolve { className := "Short" } = .error (.arity "Short" 1 0) ∧
      table.resolve { className := "Late", args := [.null] } = .error (.date "tomorrow" "") ∧
      table.resolve { className := "Proxy", args := [.null] } =
        .error (.argumentType "PauseCommand" 0 "boolean" "null") ∧
      table.resolve { className := "PauseCommand", args := [.bool true] } = .ok (.pause true) :=
  ⟨_, rfl, rfl, rfl, rfl, rfl, rfl, rfl⟩

end CommandTable

end JobQueue
