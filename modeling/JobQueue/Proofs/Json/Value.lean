import JobQueue.Proofs.Binary64.Text
import JobQueue.Proofs.Json.Written

/-! # Values written and read

A value that is written is read back as it was, unless it nests too deep. Two things about values have to
be known: the text of each double reads as that double, and no object has a name twice.
-/

namespace JobQueue

namespace Dict

variable {α : Type}

theorem insert_of_not_mem {dict : Dict α} {key : String} (fresh : key ∉ keys dict) (value : α) :
    insert dict key value = dict ++ [(key, value)] := by
  induction dict with
  | nil => rfl
  | cons entry rest ih =>
    obtain ⟨name, old⟩ := entry
    simp only [keys, List.map_cons, List.mem_cons, not_or] at fresh ih
    rw [insert, if_neg (Ne.symm fresh.1), ih fresh.2, List.cons_append]

/-- Entries with names of their own are a dictionary as they stand. -/
theorem ofEntries_of_nodup {entries : List (String × α)} (distinct : (keys entries).Nodup) :
    ofEntries entries = entries := by
  have grows (done more : List (String × α)) (distinct : (keys (done ++ more)).Nodup) :
      more.foldl (fun dict entry => insert dict entry.1 entry.2) done = done ++ more := by
    induction more generalizing done with
    | nil => rw [List.append_nil]; rfl
    | cons entry more ih =>
      obtain ⟨key, value⟩ := entry
      have fresh : key ∉ keys done := by
        rw [keys, List.map_append, List.map_cons] at distinct
        exact fun member => (List.nodup_append.mp distinct).2.2 key member key (List.mem_cons_self ..) rfl
      have shifted : done ++ (key, value) :: more = (done ++ [(key, value)]) ++ more := by
        rw [List.append_assoc]
        rfl
      rw [shifted] at distinct ⊢
      rw [← insert_of_not_mem fresh value] at distinct ⊢
      exact ih _ distinct
  exact grows [] entries distinct

end Dict

namespace Value

mutual

/-- How many arrays and objects a value nests. -/
def nesting : Value → Nat
  | array items => nestingItems items + 1
  | object members => nestingMembers members + 1
  | _ => 0

def nestingItems : List Value → Nat
  | [] => 0
  | item :: rest => max (nesting item) (nestingItems rest)

def nestingMembers : List (String × Value) → Nat
  | [] => 0
  | (_, member) :: rest => max (nesting member) (nestingMembers rest)

end

/-- The text of a double is read as that double, to its end. -/
def ReadsBack (x : Binary64) : Prop := (Json.value 0).run (Json.writeFloat x) = .ok (float x, [])

/-- The double that the text of a double is read as. -/
def readBack? (x : Binary64) : Option Binary64 :=
  match (Json.value 0).run (Json.writeFloat x) with
  | .ok (float y, []) => some y
  | _ => none

theorem readsBack_iff (x : Binary64) : ReadsBack x ↔ readBack? x = some x := by
  unfold ReadsBack readBack?
  constructor
  · intro read
    rw [read]
  · intro same
    split at same
    · next read =>
      cases same
      exact read
    · contradiction

instance (x : Binary64) : Decidable (ReadsBack x) := decidable_of_iff _ (readsBack_iff x).symm

mutual

/-- Every double reads back, and no object has a name twice. -/
def Faithful : Value → Prop
  | float number => ReadsBack number
  | array items => FaithfulItems items
  | object members => FaithfulMembers members ∧ (Dict.keys members).Nodup
  | _ => True

def FaithfulItems : List Value → Prop
  | [] => True
  | item :: rest => Faithful item ∧ FaithfulItems rest

def FaithfulMembers : List (String × Value) → Prop
  | [] => True
  | (_, member) :: rest => Faithful member ∧ FaithfulMembers rest

end

end Value

/-! ## The text of a double -/

namespace Json

open Value

theorem ne_of_isDigit {c d : Char} (digit : c.isDigit = true) (other : d.isDigit = false) : c ≠ d := by
  rintro rfl
  rw [digit] at other
  contradiction

theorem isSpace_of_isDigit {c : Char} (digit : c.isDigit = true) : isSpace c = false := by
  simp [isSpace, ne_of_isDigit digit]

/-- A value that begins with a digit is a number. -/
theorem valueFrom_digit (nested? : Option (Reader Value)) {c : Char} (digit : c.isDigit = true)
    (rest : List Char) :
    valueFrom nested? c rest =
      (numeralBody false (c :: rest)).andThen fun number left => .ok (number.value, left) := by
  have other (d : Char) (not : d.isDigit = false) : c ≠ d := ne_of_isDigit digit not
  unfold valueFrom
  rw [if_neg (other 'n' rfl), if_neg (other 't' rfl), if_neg (other 'f' rfl), if_neg (other '-' rfl),
    if_neg (other '"' rfl), if_neg (other '[' rfl), if_neg (other '\x7b' rfl), if_pos digit]

/-- What a reader of values does is decided by the first visible character. -/
theorem value_run (depth : Nat) {c : Char} (visible : isSpace c = false) :
    ∃ nested?, ∀ rest, (value depth).run (c :: rest) = valueFrom nested? c rest := by
  cases depth with
  | zero => exact ⟨none, fun _ => by simp only [value, Reader.start, skipSpace_cons visible]⟩
  | succ depth =>
    exact ⟨some (value depth), fun _ => by simp only [value, Reader.start, skipSpace_cons visible]⟩

/-- A value is settled by its numeral behind a minus sign. -/
theorem negative_settles {depth : Nat} {text : List Char} {number : Numeral} {deep : Prop} (shallow : ¬ deep)
    (read : ∀ rest, Delimited rest → numeralBody true (text ++ rest) = .ok (number, rest)) :
    Settles (value depth) ('-' :: text) deep number.value := by
  refine Settles.scalar rfl (by decide) ?_ shallow
  intro rest delimited
  obtain ⟨nested?, run⟩ := value_run depth (show isSpace '-' = false from rfl)
  rw [run]
  change (numeralBody true (text ++ rest)).andThen _ = _
  rw [read rest delimited]
  rfl

/-- A value is settled by its numeral, if that begins with a digit. -/
theorem digits_settle {depth : Nat} {text : List Char} {number : Numeral} {deep : Prop} (shallow : ¬ deep)
    (first : DigitFirst text)
    (read : ∀ rest, Delimited rest → numeralBody false (text ++ rest) = .ok (number, rest)) :
    Settles (value depth) text deep number.value := by
  obtain ⟨c, tail, rfl, digit⟩ := first
  refine Settles.scalar (isSpace_of_isDigit digit) (ne_of_isDigit digit rfl) ?_ shallow
  intro rest delimited
  obtain ⟨nested?, run⟩ := value_run depth (isSpace_of_isDigit digit)
  rw [run, valueFrom_digit nested? digit, ← List.cons_append, read rest delimited]
  rfl

/-- A double that reads back alone reads back in front of any delimiter. -/
theorem float_settles {x : Binary64} (readsBack : ReadsBack x) (depth : Nat) {deep : Prop}
    (shallow : ¬ deep) : Settles (value depth) (writeFloat x) deep (.float x) := by
  have numeral {negative : Bool} {text : List Char}
      (read : ((numeralBody negative text).andThen fun number left => .ok (number.value, left)) =
        .ok (.float x, [])) :
      ∃ number, number.value = .float x ∧
        ∀ rest, Delimited rest → numeralBody negative (text ++ rest) = .ok (number, rest) := by
    obtain ⟨number, left, found, equal⟩ := Outcome.andThen_eq_ok.mp read
    obtain ⟨value, rfl⟩ := Prod.mk.inj (Except.ok.inj equal)
    refine ⟨number, value, ?_⟩
    intro rest delimited
    exact numeralBody_append rest found fun _ => delimited.endsNumeral
  have null : writeFloat x ≠ writeNull := by
    intro equal
    rw [ReadsBack, equal] at readsBack
    cases readsBack
  rcases NumberLayout.write_head .json x with name | digits | ⟨rest, signed⟩
  · refine absurd ?_ null
    have named : NumberLayout.json.write x = "null" := by
      simpa [NumberLayout.json] using name
    rw [writeFloat, named]
    rfl
  · change DigitFirst (writeFloat x) at digits
    obtain ⟨c, tail, equal, digit⟩ := digits
    obtain ⟨nested?, run⟩ := value_run 0 (isSpace_of_isDigit digit)
    rw [ReadsBack, equal, run, valueFrom_digit nested? digit] at readsBack
    obtain ⟨number, value, reads⟩ := numeral readsBack
    rw [equal, ← value]
    exact digits_settle shallow ⟨c, tail, rfl, digit⟩ reads
  · change writeFloat x = '-' :: rest at signed
    rw [ReadsBack, signed] at readsBack
    have read : ((numeralBody true rest).andThen fun number left => .ok (number.value, left)) =
        .ok (.float x, []) := readsBack
    obtain ⟨number, value, reads⟩ := numeral read
    rw [signed, ← value]
    exact negative_settles shallow reads

/-- A whole number of 64 bits is one. -/
theorem wholeNumeral_value {n : Int} (lower : -0x8000000000000000 ≤ n) (upper : n < 0x8000000000000000) :
    (wholeNumeral (decide (n < 0)) n.natAbs).value = .int (Int64.ofInt n) := by
  by_cases negative : n < 0
  · have small : ¬ (n.natAbs = 0 ∨ 0x8000000000000000 < n.natAbs) := by omega
    have signed : -(n.natAbs : Int) = n := by omega
    simp only [wholeNumeral, decide_eq_true negative, Bool.not_true, Bool.false_eq_true, if_false]
    rw [if_neg small, signed, Numeral.value, if_pos (by omega)]
  · have same : (n.natAbs : Int) = n := by omega
    simp only [wholeNumeral, decide_eq_false negative, Bool.not_false, if_true]
    rw [same, Numeral.value, if_pos (by omega)]

/-- A whole number of 64 bits reads back. -/
theorem int_settles (number : Int64) (depth : Nat) {deep : Prop} (shallow : ¬ deep) :
    Settles (value depth) (Text.integer number.toInt) deep (.int number) := by
  have upper : number.toInt < 2 ^ 63 := number.toInt_lt
  have lower : -2 ^ 63 ≤ number.toInt := number.le_toInt
  have fits : number.toInt.natAbs < UInt64.size := by
    simp only [UInt64.size]
    omega
  have whole := wholeNumeral_value lower upper
  rw [Int64.ofInt_toInt] at whole
  unfold Text.integer
  split
  · next negative =>
    rw [decide_eq_true negative] at whole
    rw [← whole]
    exact negative_settles shallow fun rest delimited => numeralBody_toDigits fits delimited.endsNumeral
  · next positive =>
    rw [decide_eq_false positive] at whole
    rw [← whole]
    have first : DigitFirst (Nat.toDigits 10 number.toInt.natAbs) := by
      obtain ⟨c, tail, equal⟩ := List.exists_cons_of_ne_nil (Nat.toDigits_ne_nil (n := number.toInt.natAbs))
      exact ⟨c, tail, equal, Text.isDigit_of_mem_toDigits (by rw [equal]; exact List.mem_cons_self ..)⟩
    exact digits_settle shallow first fun rest delimited => numeralBody_toDigits fits delimited.endsNumeral

/-! ## Values as a whole -/

mutual

/-- A value that is written is read back as it was, unless it nests too deep. -/
theorem value_settles : (v : Value) → v.Faithful → (depth : Nat) →
    Settles (value depth) (writeValue v) (depth < v.nesting) v
  | .null, _, depth => by
    obtain ⟨nested?, run⟩ := value_run depth (show isSpace 'n' = false from rfl)
    exact Settles.scalar rfl (by decide) (fun rest _ => run _) (Nat.not_lt_zero depth)
  | .bool flag, _, depth => by
    cases flag with
    | true =>
      obtain ⟨nested?, run⟩ := value_run depth (show isSpace 't' = false from rfl)
      exact Settles.scalar rfl (by decide) (fun rest _ => run _) (Nat.not_lt_zero depth)
    | false =>
      obtain ⟨nested?, run⟩ := value_run depth (show isSpace 'f' = false from rfl)
      exact Settles.scalar rfl (by decide) (fun rest _ => run _) (Nat.not_lt_zero depth)
  | .int number, _, depth => int_settles number depth (Nat.not_lt_zero depth)
  | .float _, readsBack, depth => float_settles readsBack depth (Nat.not_lt_zero depth)
  | .string text, _, depth => by
    obtain ⟨nested?, run⟩ := value_run depth (show isSpace '"' = false from rfl)
    refine Settles.scalar rfl (by decide) ?_ (Nat.not_lt_zero depth)
    intro rest _
    rw [run, List.append_assoc]
    change (stringBody.run (text.toList.flatMap escapeChar ++ '"' :: rest)).andThen _ = _
    rw [stringBody_escaped]
    rfl
  | .array items, faithful, depth =>
    nested_settles value .array '[' (.inl rfl) rfl (by decide) rfl
      (fun depth => items_settle items faithful depth true)
      (fun _ => ⟨_, rfl⟩) (fun _ _ => rfl) depth
  | .object members, ⟨faithful, distinct⟩, depth => by
    have settled : Settles (value depth) _ _ (.object (Dict.ofEntries members)) :=
      nested_settles value (fun members => .object (Dict.ofEntries members)) '\x7b' (.inr rfl) rfl
        (by decide) rfl (fun depth => members_settle members faithful depth true)
        (fun _ => ⟨_, rfl⟩) (fun _ _ => rfl) depth
    rwa [Dict.ofEntries_of_nodup distinct] at settled

theorem items_settle : (items : List Value) → FaithfulItems items → (depth : Nat) → (first : Bool) →
    Steps (elementStep (value depth)) id ']' first (writeItems items) (depth < nestingItems items) items
  | [], _, depth, first => .done (elementStep_closes first) (Nat.not_lt_zero depth)
  | item :: rest, ⟨faithful, others⟩, depth, first =>
    .next ((value_settles item faithful depth).takesItem first) (items_settle rest others depth false)
      (by rw [nestingItems]; omega)

theorem members_settle : (members : List (String × Value)) → FaithfulMembers members → (depth : Nat) →
    (first : Bool) →
    Steps (memberStep (value depth)) id '}' first
      ((writeMembers members).map fun (name, written) => writeMember name written)
      (depth < nestingMembers members) members
  | [], _, depth, first => .done (memberStep_closes first) (Nat.not_lt_zero depth)
  | (name, member) :: rest, ⟨faithful, others⟩, depth, first =>
    .next ((value_settles member faithful depth).takesMember first name)
      (members_settle rest others depth false) (by rw [nestingMembers]; omega)

end

/-- An array of values is read as a list. -/
theorem values_settle {items : List Value} (faithful : FaithfulItems items) (depth : Nat) :
    Settles (values depth) (writeArray (writeItems items)) (depth < nestingItems items + 1) items :=
  list_settles (fun depth => items_settle items faithful depth true) depth

/-- An object of values is read as a dictionary. -/
theorem dict_settles {expected : String} {members : Dict Value} (faithful : (Value.object members).Faithful)
    (depth : Nat) :
    Settles (dict expected depth) (writeObject (writeMembers members)) (depth < nestingMembers members + 1)
      members := by
  obtain ⟨each, distinct⟩ := faithful
  have settled : Settles (dict expected depth) _ _ (Dict.ofEntries members) :=
    nested_settles (dict expected) Dict.ofEntries '\x7b' (.inr rfl) rfl (by decide) rfl
      (fun depth => members_settle members each depth true)
      (fun _ => ⟨_, rfl⟩) (fun _ _ => rfl) depth
  rwa [Dict.ofEntries_of_nodup distinct] at settled

end Json

end JobQueue
