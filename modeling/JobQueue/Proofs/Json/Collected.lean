import JobQueue.Proofs.Json.Printed
import JobQueue.Proofs.Json.View

/-! # Objects as they are collected

The members of an object are collected to a dictionary one after the other. Whatever names are repeated, its
keys are distinct, they come in the order in which the names first occur, and each is bound to the value of
the last member of its name. So a way through the text of a value, which takes the last member of a name,
leads to the same thing in the value and in what is written for the value.
-/

namespace JobQueue

namespace Dict

variable {α β : Type}

/-- The value of the last entry of a key. -/
def last? : Dict α → String → Option α
  | [], _ => none
  | (name, value) :: rest, key => (last? rest key).or (if name = key then some value else none)

theorem last?_cons (name : String) (value : α) (rest : Dict α) (key : String) :
    last? ((name, value) :: rest) key = (last? rest key).or (if name = key then some value else none) := rfl

theorem last?_concat (dict : Dict α) (name : String) (value : α) (key : String) :
    last? (dict ++ [(name, value)]) key = if name = key then some value else last? dict key := by
  induction dict with
  | nil => exact Option.none_or
  | cons entry rest ih =>
    obtain ⟨first, old⟩ := entry
    rw [List.cons_append, last?_cons, last?_cons, ih]
    split <;> rfl

theorem last?_eq_none_iff (dict : Dict α) (key : String) : last? dict key = none ↔ key ∉ keys dict := by
  induction dict with
  | nil => simp [keys, last?]
  | cons entry rest ih =>
    obtain ⟨name, value⟩ := entry
    rw [last?_cons, Option.or_eq_none_iff, ih, keys, keys, List.map_cons, List.mem_cons, not_or]
    by_cases same : name = key
    · simp [same]
    · simp [same, Ne.symm same]

/-- With distinct keys the last entry is the only one. -/
theorem last?_of_nodup {dict : Dict α} (distinct : (keys dict).Nodup) (key : String) :
    last? dict key = get? dict key := by
  induction dict with
  | nil => rfl
  | cons entry rest ih =>
    obtain ⟨name, value⟩ := entry
    obtain ⟨fresh, others⟩ := List.nodup_cons.mp distinct
    rw [last?_cons, get?_cons, ih others]
    split
    · next same =>
      subst same
      rw [(get?_eq_none_iff rest name).mpr fresh, Option.none_or]
    · exact Option.or_none

theorem mem_of_last? {dict : Dict α} {key : String} {value : α} (found : last? dict key = some value) :
    (key, value) ∈ dict := by
  induction dict with
  | nil => contradiction
  | cons entry rest ih =>
    obtain ⟨name, old⟩ := entry
    rw [last?_cons, Option.or_eq_some_iff] at found
    rcases found with behind | ⟨-, here⟩
    · exact List.mem_cons_of_mem _ (ih behind)
    · split at here
      · next same =>
        cases here
        exact same ▸ List.mem_cons_self
      · contradiction

/-! ## Entries inserted one after the other -/

theorem ofEntries_concat (entries : List (String × α)) (key : String) (value : α) :
    ofEntries (entries ++ [(key, value)]) = insert (ofEntries entries) key value := List.foldl_append ..

theorem get?_ofEntries (entries : List (String × α)) (key : String) :
    get? (ofEntries entries) key = last? entries key := by
  induction entries using List.reverseRecOn with
  | nil => rfl
  | append_singleton entries entry ih =>
    obtain ⟨name, value⟩ := entry
    rw [ofEntries_concat, get?_insert, last?_concat, ih]

theorem mem_keys_ofEntries (entries : List (String × α)) (key : String) :
    key ∈ keys (ofEntries entries) ↔ key ∈ keys entries := by
  rw [← not_iff_not, ← get?_eq_none_iff, ← last?_eq_none_iff, get?_ofEntries]

/-- Keys come in the order of their first entries. -/
theorem keys_ofEntries_ordered (entries : List (String × α)) :
    (keys (ofEntries entries)).Pairwise fun a b => (keys entries).idxOf a < (keys entries).idxOf b := by
  induction entries using List.reverseRecOn with
  | nil => exact List.Pairwise.nil
  | append_singleton entries entry ih =>
    obtain ⟨key, value⟩ := entry
    have longer : keys (entries ++ [(key, value)]) = keys entries ++ [key] := List.map_append
    have stays {name : String} (member : name ∈ keys (ofEntries entries)) :
        (keys entries ++ [key]).idxOf name = (keys entries).idxOf name :=
      List.idxOf_append_of_mem ((mem_keys_ofEntries entries name).mp member)
    have before : (keys (ofEntries entries)).Pairwise fun a b =>
        (keys entries ++ [key]).idxOf a < (keys entries ++ [key]).idxOf b :=
      ih.imp_of_mem fun first second less => by rwa [stays first, stays second]
    rw [ofEntries_concat, keys_insert, longer]
    split
    · exact before
    · next fresh =>
      refine List.pairwise_append.mpr ⟨before, List.pairwise_singleton _ _, ?_⟩
      intro name member other last
      rw [List.mem_singleton.mp last, stays member]
      have inside := List.idxOf_lt_length_iff.mpr ((mem_keys_ofEntries entries name).mp member)
      have outside := (mem_keys_ofEntries entries key).not.mp fresh
      rw [List.idxOf_append_of_notMem outside]
      omega

theorem nodup_keys_ofEntries (entries : List (String × α)) : (keys (ofEntries entries)).Nodup :=
  (keys_ofEntries_ordered entries).imp fun less same => absurd (same ▸ less) (Nat.lt_irrefl _)

end Dict

namespace Json

/-! ## Collected objects -/

/-- What the members of an object are collected to. -/
structure Collected (members : List (String × Tree)) (dict : Dict Value) : Prop where
  /-- No key occurs twice. -/
  distinct : (Dict.keys dict).Nodup
  /-- The keys are the names of the members. -/
  names : ∀ name, name ∈ Dict.keys dict ↔ name ∈ Dict.keys members
  /-- They come in the order in which the names first occur. -/
  ordered : (Dict.keys dict).Pairwise fun a b =>
    (Dict.keys members).idxOf a < (Dict.keys members).idxOf b
  /-- Each is bound to the value of the last member of its name. -/
  bound : ∀ name, Dict.get? dict name = (Dict.last? members name).bind Tree.value?

section MapM

variable {α β : Type} {f : α → Option β}

/-- Each element is turned into that of its place. -/
theorem mapM_eq_some_iff {items : List α} {found : List β} :
    items.mapM f = some found ↔ items.map f = found.map some := by
  induction items generalizing found with
  | nil => cases found <;> simp
  | cons item rest ih =>
    rw [List.mapM_cons, List.map_cons]
    simp only [Option.bind_eq_bind, Option.bind_eq_some_iff, ih]
    constructor
    · rintro ⟨first, here, others, there, equal⟩
      obtain rfl := Option.some.inj equal
      rw [here, there, List.map_cons]
    · intro whole
      cases found with
      | nil => contradiction
      | cons first others =>
        obtain ⟨here, there⟩ := List.cons.inj whole
        exact ⟨first, here, others, there, rfl⟩

theorem mapM_isSome_iff {items : List α} :
    (items.mapM f).isSome = true ↔ ∀ item ∈ items, (f item).isSome = true := by
  induction items with
  | nil => simp
  | cons item rest ih =>
    rw [List.mapM_cons, List.forall_mem_cons, ← ih]
    cases f item <;> cases rest.mapM f <;> simp

theorem getElem?_of_mapM {items : List α} {found : List β} (made : items.mapM f = some found) (index : Nat) :
    items[index]?.map f = found[index]?.map some := by
  rw [← List.getElem?_map, ← List.getElem?_map, mapM_eq_some_iff.mp made]

end MapM

section Collected

variable {α : Type} {view : Tree → Option α} {members : List (String × Tree)} {entries : List (String × α)}

theorem keys_of_mapM (seen : members.mapM (Tree.member? view) = some entries) :
    Dict.keys entries = Dict.keys members := by
  rw [mapM_eq_some_iff] at seen
  induction members generalizing entries with
  | nil =>
    rw [List.map_eq_nil_iff.mp seen.symm]
    rfl
  | cons member rest ih =>
    cases entries with
    | nil => contradiction
    | cons entry others =>
      obtain ⟨here, there⟩ := List.cons.inj seen
      obtain ⟨a, -, rfl⟩ := Option.map_eq_some_iff.mp here
      exact congrArg (member.1 :: ·) (ih there)

theorem isSome_of_mapM (seen : members.mapM (Tree.member? view) = some entries) {name : String} {tree : Tree}
    (among : (name, tree) ∈ members) : (view tree).isSome = true := by
  have each := mapM_isSome_iff.mp (Option.isSome_iff_exists.mpr ⟨entries, seen⟩) _ among
  rwa [Tree.member?, Option.isSome_map] at each

theorem last?_of_mapM (seen : members.mapM (Tree.member? view) = some entries) (name : String) :
    Dict.last? entries name = (Dict.last? members name).bind view := by
  induction members generalizing entries with
  | nil =>
    cases seen
    rfl
  | cons member rest ih =>
    have whole := mapM_eq_some_iff.mp seen
    cases entries with
    | nil => contradiction
    | cons entry others =>
      obtain ⟨here, there⟩ := List.cons.inj whole
      obtain ⟨a, viewed, rfl⟩ := Option.map_eq_some_iff.mp here
      obtain ⟨key, tree⟩ := member
      rw [Dict.last?_cons, Dict.last?_cons, ih (mapM_eq_some_iff.mpr there)]
      cases found : Dict.last? rest name with
      | none =>
        rw [Option.bind_none, Option.none_or, Option.none_or]
        split
        · exact viewed.symm
        · rfl
      | some last =>
        -- a later member of the name is not passed over, since it was seen
        obtain ⟨value, later⟩ := Option.isSome_iff_exists.mp
          (isSome_of_mapM seen (List.mem_cons_of_mem _ (Dict.mem_of_last? found)))
        rw [Option.bind_some, Option.some_or, Option.bind_some, later, Option.some_or]

theorem collected_ofEntries {entries : List (String × Value)}
    (seen : members.mapM (Tree.member? Tree.value?) = some entries) : Collected members (Dict.ofEntries entries) where
  distinct := Dict.nodup_keys_ofEntries entries
  names name := by rw [Dict.mem_keys_ofEntries, keys_of_mapM seen]
  ordered := keys_of_mapM seen ▸ Dict.keys_ofEntries_ordered entries
  bound name := by rw [Dict.get?_ofEntries, last?_of_mapM seen]

end Collected

/-- An object has a value just if each of its members has one, whatever their names. -/
theorem value?_object_isSome (members : List (String × Tree)) :
    (Tree.value? (.object members)).isSome = true ↔ ∀ member ∈ members, (Tree.value? member.2).isSome = true := by
  rw [Tree.value?, Option.isSome_map, Tree.entries?_eq_mapM, mapM_isSome_iff]
  simp only [Tree.member?, Option.isSome_map]

/-- The value of an object is the dictionary that its members are collected to. -/
theorem value?_object {members : List (String × Tree)} {value : Value}
    (seen : Tree.value? (.object members) = some value) :
    ∃ dict, value = .object dict ∧ Collected members dict := by
  rw [Tree.value?, Tree.entries?_eq_mapM] at seen
  obtain ⟨entries, entered, rfl⟩ := Option.map_eq_some_iff.mp seen
  exact ⟨_, rfl, collected_ofEntries entered⟩

/-! ## Ways into trees and values -/

/-- One turn on the way to what an array or an object contains. -/
inductive Turn where
  | item (index : Nat)
  | member (name : String)
deriving DecidableEq, Repr

/-- What stands in a text at the end of a way. Of members of one name the last is taken. -/
def Tree.at? : List Turn → Tree → Option Tree
  | [], tree => some tree
  | .item index :: way, .array items => items[index]?.bind (at? way)
  | .member name :: way, .object members => (Dict.last? members name).bind (at? way)
  | _, _ => none

end Json

open Json

/-- What a value contains at the end of a way. -/
def Value.at? : List Turn → Value → Option Value
  | [], value => some value
  | .item index :: way, .array items => items[index]?.bind (at? way)
  | .member name :: way, .object members => (Dict.get? members name).bind (at? way)
  | _, _ => none

namespace Json

theorem get?_ofMembers (dict : Dict Value) (name : String) :
    Dict.get? (Tree.ofMembers dict) name = (Dict.get? dict name).map .ofValue := by
  induction dict with
  | nil => rfl
  | cons entry rest ih =>
    obtain ⟨key, value⟩ := entry
    rw [Tree.ofMembers, Dict.get?_cons, Dict.get?_cons, ih]
    split <;> rfl

theorem last?_ofMembers {dict : Dict Value} (distinct : (Dict.keys dict).Nodup) (name : String) :
    Dict.last? (Tree.ofMembers dict) name = (Dict.get? dict name).map .ofValue := by
  rw [Dict.last?_of_nodup (by rwa [Tree.keys_ofMembers]), get?_ofMembers]

/-- What a way through the text of a tree leads to, it leads to in a value as well, decoded, and in what is
written for the value. A null is left out, since a member that holds it may be. -/
def Conveys (tree : Tree) (value : Value) (way : List Turn) : Prop :=
  ∀ found, tree.at? way = some found → found ≠ .null → ∃ inner, found.value? = some inner ∧
    value.at? way = some inner ∧ (Tree.ofValue value).at? way = some (.ofValue inner)

theorem at?_null {way : List Turn} {found : Tree} (there : Tree.at? way .null = some found) : found = .null := by
  cases way with
  | nil => exact (Option.some.inj there).symm
  | cons turn way => cases turn <;> contradiction

theorem conveys_item {items : List Tree} {values : List Value} {index : Nat} {way : List Turn}
    (each : ∀ tree, items[index]? = some tree → ∃ value, values[index]? = some value ∧ Conveys tree value way) :
    Conveys (.array items) (.array values) (.item index :: way) := by
  intro found there some
  obtain ⟨tree, item, behind⟩ := Option.bind_eq_some_iff.mp there
  obtain ⟨value, same, conveys⟩ := each tree item
  obtain ⟨inner, decoded, seen, written⟩ := conveys found behind some
  refine ⟨inner, decoded, ?_, ?_⟩
  · rw [Value.at?, same, Option.bind_some, seen]
  · rw [Tree.ofValue, Tree.at?, Tree.ofItems_eq_map, List.getElem?_map, same, Option.map_some, Option.bind_some,
      written]

/-- A way into an object goes on from the last member of a name. -/
theorem conveys_member {members : List (String × Tree)} {dict : Dict Value}
    (distinct : (Dict.keys dict).Nodup) {name : String} {way : List Turn}
    (last : ∀ tree, Dict.last? members name = some tree → tree ≠ .null →
      ∃ value, Dict.get? dict name = some value ∧ Conveys tree value way) :
    Conveys (.object members) (.object dict) (.member name :: way) := by
  intro found there some
  obtain ⟨tree, member, behind⟩ := Option.bind_eq_some_iff.mp there
  have visible : tree ≠ .null := by
    rintro rfl
    exact some (at?_null behind)
  obtain ⟨value, same, conveys⟩ := last tree member visible
  obtain ⟨inner, decoded, seen, written⟩ := conveys found behind some
  refine ⟨inner, decoded, ?_, ?_⟩
  · rw [Value.at?, same, Option.bind_some, seen]
  · rw [Tree.ofValue, Tree.at?, last?_ofMembers distinct, same, Option.map_some, Option.bind_some, written]

/-- Every way into a tree is one into its value. -/
theorem conveys_value (way : List Turn) {tree : Tree} {value : Value} (seen : tree.value? = some value) :
    Conveys tree value way := by
  induction way generalizing tree value with
  | nil =>
    intro found there _
    cases there
    exact ⟨value, seen, rfl, rfl⟩
  | cons turn way ih =>
    cases turn with
    | item index =>
      cases tree with
      | array items =>
        rw [Tree.value?, Tree.values?_eq_mapM] at seen
        obtain ⟨values, each, rfl⟩ := Option.map_eq_some_iff.mp seen
        have same := getElem?_of_mapM each index
        refine conveys_item fun tree item => ?_
        rw [item] at same
        obtain ⟨value, here, decoded⟩ := Option.map_eq_some_iff.mp same.symm
        exact ⟨value, here, ih decoded.symm⟩
      | _ =>
        intro found there
        contradiction
    | member name =>
      cases tree with
      | object members =>
        obtain ⟨dict, rfl, collected⟩ := value?_object seen
        refine conveys_member collected.distinct fun tree last _ => ?_
        have each := (value?_object_isSome members).mp (Option.isSome_iff_exists.mpr ⟨_, seen⟩)
        obtain ⟨value, decoded⟩ := Option.isSome_iff_exists.mp (each _ (Dict.mem_of_last? last))
        refine ⟨value, ?_, ih decoded⟩
        rw [collected.bound, last, Option.bind_some, decoded]
      | _ =>
        intro found there
        contradiction

end Json

end JobQueue
