/-! # Ordered dictionaries

An association list with string keys. Inserting a key that is present overwrites its value in place,
so a key keeps the position of its first insertion. `get?` is the view all other laws are stated with.
-/

namespace JobQueue

/-- Entries in insertion order. -/
abbrev Dict (α : Type) := List (String × α)

namespace Dict

variable {α : Type}

/-- The value of a key. -/
def get? : Dict α → String → Option α
  | [], _ => none
  | (name, value) :: rest, key => if name = key then some value else get? rest key

/-- The keys in insertion order. -/
def keys (dict : Dict α) : List String := dict.map (·.1)

/-- Binds a key, in place if it is already bound. -/
def insert : Dict α → String → α → Dict α
  | [], key, value => [(key, value)]
  | (name, old) :: rest, key, value =>
    if name = key then (name, value) :: rest else (name, old) :: insert rest key value

/-- Drops a key. -/
def erase (dict : Dict α) (key : String) : Dict α := dict.filter fun entry => entry.1 != key

/-- Inserts entries one after the other. -/
def ofEntries (entries : List (String × α)) : Dict α :=
  entries.foldl (fun dict (key, value) => insert dict key value) []

@[simp] theorem get?_nil (key : String) : get? ([] : Dict α) key = none := rfl

theorem get?_cons (name : String) (value : α) (rest : Dict α) (key : String) :
    get? ((name, value) :: rest) key = if name = key then some value else get? rest key := rfl

theorem get?_insert (dict : Dict α) (key other : String) (value : α) :
    get? (insert dict key value) other = if key = other then some value else get? dict other := by
  induction dict with
  | nil => rfl
  | cons entry rest ih =>
    obtain ⟨name, old⟩ := entry
    by_cases same : name = key <;> by_cases wanted : name = other <;>
      simp_all [insert, get?_cons]
    intro equal
    exact absurd equal.symm same

/-- Binding a key to the value that it has changes nothing. -/
theorem insert_of_get? {dict : Dict α} {key : String} {value : α} (found : get? dict key = some value) :
    insert dict key value = dict := by
  induction dict with
  | nil => contradiction
  | cons entry rest ih =>
    obtain ⟨name, old⟩ := entry
    rw [get?_cons] at found
    rw [insert]
    split at found
    · next same =>
      cases found
      rw [if_pos same]
    · next differ => rw [if_neg differ, ih found]

/-- Entries that are kept or dropped by their keys leave the keys that are kept as they were. -/
theorem get?_filter (dict : Dict α) (keep : String → Bool) (key : String) :
    get? (dict.filter fun entry => keep entry.1) key = if keep key then get? dict key else none := by
  induction dict with
  | nil => simp
  | cons entry rest ih =>
    obtain ⟨name, value⟩ := entry
    rw [List.filter_cons]
    by_cases same : name = key
    · subst same
      cases kept : keep name with
      | true => simp [get?_cons]
      | false => simp [ih, kept]
    · cases kept : keep name <;> simp [get?_cons, same, ih]

theorem get?_erase (dict : Dict α) (key other : String) :
    get? (erase dict key) other = if key = other then none else get? dict other := by
  rw [erase, get?_filter dict (· != key)]
  by_cases same : key = other
  · simp [same]
  · simp [same, Ne.symm same]

theorem get?_eq_none_iff (dict : Dict α) (key : String) : get? dict key = none ↔ key ∉ keys dict := by
  induction dict with
  | nil => simp [keys]
  | cons entry rest ih =>
    obtain ⟨name, old⟩ := entry
    simp only [get?_cons, keys, List.map_cons, List.mem_cons, not_or] at ih ⊢
    by_cases same : name = key
    · simp [same]
    · simp [same, ih, Ne.symm same]

theorem mem_of_get? {dict : Dict α} {key : String} {value : α} (found : get? dict key = some value) :
    (key, value) ∈ dict := by
  induction dict with
  | nil => contradiction
  | cons entry rest ih =>
    obtain ⟨name, old⟩ := entry
    rw [get?_cons] at found
    split at found
    · next same =>
      cases found
      exact same ▸ List.mem_cons_self ..
    · exact List.mem_cons_of_mem _ (ih found)

/-- An entry is found, if keys are distinct. -/
theorem get?_of_mem {dict : Dict α} {key : String} (distinct : (keys dict).Nodup) {value : α}
    (member : (key, value) ∈ dict) :
    get? dict key = some value := by
  induction dict with
  | nil => contradiction
  | cons entry rest ih =>
    obtain ⟨name, old⟩ := entry
    obtain ⟨new, others⟩ := List.nodup_cons.mp distinct
    rw [get?_cons]
    rcases List.mem_cons.mp member with same | later
    · cases same
      exact if_pos rfl
    · have differ : name ≠ key := by
        rintro rfl
        exact new (List.mem_map.mpr ⟨_, later, rfl⟩)
      rw [if_neg differ]
      exact ih others later

/-- What stands first is found first. -/
theorem get?_append (first second : Dict α) (key : String) :
    get? (first ++ second) key = (get? first key).or (get? second key) := by
  induction first with
  | nil => rfl
  | cons entry rest ih =>
    obtain ⟨name, value⟩ := entry
    rw [List.cons_append, get?_cons, get?_cons, ih]
    split <;> rfl

/-- With distinct keys, the order of the entries does not matter. -/
theorem get?_perm {dict other : Dict α} (distinct : (keys dict).Nodup) (same : dict.Perm other) :
    get? other = get? dict := by
  have others : (keys other).Nodup := (same.map Prod.fst).nodup distinct
  funext key
  cases found : get? dict key with
  | none =>
    rw [get?_eq_none_iff] at found ⊢
    exact fun member => found ((same.map Prod.fst).mem_iff.mpr member)
  | some value => exact get?_of_mem others (same.mem_iff.mp (mem_of_get? found))

/-- A new key goes to the end; a bound key stays where it is. -/
theorem keys_insert (dict : Dict α) (key : String) (value : α) :
    keys (insert dict key value) = if key ∈ keys dict then keys dict else keys dict ++ [key] := by
  induction dict with
  | nil => rfl
  | cons entry rest ih =>
    obtain ⟨name, old⟩ := entry
    by_cases same : name = key
    · simp [insert, keys, same]
    · simp only [insert, same, if_false, keys, List.map_cons, List.mem_cons, Ne.symm same, false_or] at ih ⊢
      rw [ih]
      split <;> simp_all

end Dict

end JobQueue
