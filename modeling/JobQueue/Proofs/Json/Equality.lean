import JobQueue.Codec
import JobQueue.Proofs.Record

/-! # Equal values and their texts

Values are equal whatever the order of the keys of their objects, and zero equals minus zero. A text keeps
both. So equal values have one text just if they are spelled alike: their objects list their keys in one
order, and their zeros have the same signs.
-/

namespace JobQueue

namespace Value

mutual

/-- No object names a key twice. -/
def Distinct : Value → Prop
  | array items => DistinctItems items
  | object members => (Dict.keys members).Nodup ∧ DistinctMembers members
  | _ => True

def DistinctItems : List Value → Prop
  | [] => True
  | item :: rest => Distinct item ∧ DistinctItems rest

def DistinctMembers : List (String × Value) → Prop
  | [] => True
  | (_, member) :: rest => Distinct member ∧ DistinctMembers rest

end

mutual

/-- Objects list the same keys in the same order, and numbers have the same sign, zeros too. -/
def Alike : Value → Value → Prop
  | float a, float b => a.negative = b.negative
  | array a, array b => AlikeItems a b
  | object a, object b => AlikeMembers a b
  | _, _ => True

def AlikeItems : List Value → List Value → Prop
  | a :: rest, b :: others => Alike a b ∧ AlikeItems rest others
  | _, _ => True

def AlikeMembers : List (String × Value) → List (String × Value) → Prop
  | (name, a) :: rest, (other, b) :: others => name = other ∧ Alike a b ∧ AlikeMembers rest others
  | _, _ => True

end

end Value

namespace Binary64

/-- Equal numbers are the same number, but for the sign of zero. -/
theorem eq_of_same {a b : Binary64} (same : a.same b = true) (sign : a.negative = b.negative) : a = b := by
  obtain ⟨negative, magnitude, _⟩ := a
  obtain ⟨_, other, _⟩ := b
  cases sign
  simp only [Binary64.same, Bool.and_eq_true, beq_iff_eq, place] at same
  obtain rfl : magnitude = other := by
    have places := same.2
    split at places <;> omega
  rfl

/-- Equal numbers of different signs are zeros. -/
theorem zero_of_same {a b : Binary64} (same : a.same b = true) (sign : a.negative ≠ b.negative) :
    a = zero a.negative ∧ b = zero b.negative := by
  obtain ⟨negative, magnitude, _⟩ := a
  obtain ⟨other, size, _⟩ := b
  simp only [Binary64.same, Bool.and_eq_true, beq_iff_eq, place] at same
  have places := same.2
  obtain ⟨rfl, rfl⟩ : magnitude = 0 ∧ size = 0 := by
    cases negative <;> cases other <;> simp at sign places <;> omega
  exact ⟨rfl, rfl⟩

/-- The sign of a number stands in front of its text. -/
theorem negative_eq_of_writeFloat {a b : Binary64} (same : a.same b = true) {rest others : List Char}
    (text : Json.writeFloat a ++ rest = Json.writeFloat b ++ others) : a.negative = b.negative := by
  by_contra sign
  obtain ⟨zeroA, zeroB⟩ := zero_of_same same sign
  have positive : Json.writeFloat (zero false) = ['0', '.', '0'] := by decide +kernel
  have negative : Json.writeFloat (zero true) = ['-', '0', '.', '0'] := by decide +kernel
  rw [zeroA, zeroB] at text
  cases signA : a.negative <;> cases signB : b.negative <;> rw [signA, signB] at text sign
  · exact sign rfl
  · rw [positive, negative] at text
    simp at text
  · rw [positive, negative] at text
    simp at text
  · exact sign rfl

end Binary64

namespace Value

/-! ## Equal members, place by place -/

/-- If names are not repeated, the members behind the first are equal to the members behind the first. -/
theorem sameMembers_tail {name : String} {value : Value} {rest others : List (String × Value)}
    (fresh : name ∉ Dict.keys rest) (same : sameMembers rest ((name, value) :: others) = true) :
    sameMembers rest others = true := by
  induction rest with
  | nil => rfl
  | cons entry rest ih =>
    obtain ⟨other, member⟩ := entry
    obtain ⟨differ, fresh⟩ := not_or.mp (mt List.mem_cons.mpr fresh)
    simp only [sameMembers, Bool.and_eq_true, Dict.get?_cons, if_neg differ] at same ⊢
    exact ⟨same.1, ih fresh same.2⟩

/-- Members that begin with the same name begin with equal values, and go on with equal members. -/
theorem sameMembers_cons {name : String} {a b : Value} {rest others : List (String × Value)}
    (nodup : (Dict.keys ((name, a) :: rest)).Nodup)
    (same : sameMembers ((name, a) :: rest) ((name, b) :: others) = true) :
    Value.same a b = true ∧ sameMembers rest others = true := by
  simp only [sameMembers, Dict.get?_cons, if_true, Bool.and_eq_true] at same
  exact ⟨same.1, sameMembers_tail (List.nodup_cons.mp nodup).1 same.2⟩

mutual

/-- Equal values that are spelled alike are the same value. -/
theorem eq_of_alike : (a b : Value) → a.Distinct → same a b = true → a.Alike b → a = b
  | a, b, distinct, same, alike => by
    cases a <;> cases b <;> simp only [Value.same, Bool.false_eq_true] at same
    · rfl
    · rw [beq_iff_eq.mp same]
    · rw [beq_iff_eq.mp same]
    · rw [Binary64.eq_of_same same alike]
    · rw [beq_iff_eq.mp same]
    · rw [eq_of_alikeItems _ _ distinct same alike]
    · rw [Bool.and_eq_true, beq_iff_eq] at same
      rw [eq_of_alikeMembers _ _ distinct.1 distinct.2 same.1 same.2 alike]

theorem eq_of_alikeItems : (items others : List Value) → DistinctItems items →
    sameItems items others = true → AlikeItems items others → items = others
  | [], others, _, same, _ => by
    cases others with
    | nil => rfl
    | cons => simp [sameItems] at same
  | item :: rest, [], _, same, _ => by simp [sameItems] at same
  | item :: rest, other :: others, ⟨own, distinct⟩, same, ⟨alike, further⟩ => by
    simp only [sameItems, Bool.and_eq_true] at same
    rw [eq_of_alike item other own same.1 alike, eq_of_alikeItems rest others distinct same.2 further]

theorem eq_of_alikeMembers : (members others : List (String × Value)) → (Dict.keys members).Nodup →
    DistinctMembers members → members.length = others.length → sameMembers members others = true →
    AlikeMembers members others → members = others
  | [], others, _, _, length, _, _ => (List.length_eq_zero_iff.mp length.symm).symm
  | _ :: _, [], _, _, length, _, _ => nomatch length
  | (name, a) :: rest, (other, b) :: others, nodup, ⟨own, distinct⟩, length, same,
      ⟨named, alike, further⟩ => by
    subst named
    obtain ⟨first, behind⟩ := sameMembers_cons nodup same
    rw [eq_of_alike a b own first alike, eq_of_alikeMembers rest others (List.nodup_cons.mp nodup).2 distinct
      (Nat.succ.inj length) behind further]

end

end Value

namespace Json

open Value

/-! ## What can be told from a text -/

/-- A string is told from a text that begins with it. -/
theorem writeString_append_inj {a b : String} {rest others : List Char}
    (text : writeString a ++ rest = writeString b ++ others) : a = b ∧ rest = others := by
  have body : a.toList.flatMap escapeChar ++ '"' :: rest = b.toList.flatMap escapeChar ++ '"' :: others := by
    simpa [writeString] using text
  have read := (stringBody_escaped a rest).symm.trans ((congrArg stringBody.run body).trans
    (stringBody_escaped b others))
  cases read
  exact ⟨rfl, rfl⟩

/-- The first of several texts stands first, and each further one behind a comma. -/
theorem separated_cons (text : List Char) (rest : List (List Char)) :
    separated (text :: rest) = text ++ rest.flatMap (',' :: ·) := by
  induction rest generalizing text with
  | nil => simp [separated]
  | cons other rest ih =>
    rw [List.flatMap_cons, List.cons_append, ← ih]
    rfl

/-- Items as they stand behind the first, each behind a comma. -/
def furtherItems (items : List Value) : List Char := (writeItems items).flatMap (',' :: ·)

/-- Members as they stand behind the first. -/
def furtherMembers (members : List (String × Value)) : List Char :=
  ((writeMembers members).map fun (name, written) => writeMember name written).flatMap (',' :: ·)

theorem furtherItems_cons (item : Value) (items : List Value) (rest : List Char) :
    furtherItems (item :: items) ++ ']' :: rest =
      ',' :: (writeValue item ++ (furtherItems items ++ ']' :: rest)) := by
  simp [furtherItems, writeItems]

theorem furtherMembers_cons (name : String) (member : Value) (members : List (String × Value))
    (rest : List Char) :
    furtherMembers ((name, member) :: members) ++ '}' :: rest =
      ',' :: (writeString name ++ ':' :: (writeValue member ++ (furtherMembers members ++ '}' :: rest))) := by
  simp [furtherMembers, writeMembers, writeMember]

/-- Arrays with one text have items with one text. -/
theorem further_of_array {items others : List Value} (same : sameItems items others = true)
    {rest more : List Char} (text : writeValue (.array items) ++ rest = writeValue (.array others) ++ more) :
    furtherItems items ++ ']' :: rest = furtherItems others ++ ']' :: more := by
  cases items <;> cases others <;> simp only [sameItems, Bool.false_eq_true] at same
  · exact List.tail_eq_of_cons_eq text
  · rw [furtherItems_cons, furtherItems_cons]
    simpa [writeValue, writeArray, writeItems, separated_cons, furtherItems] using text

/-- Objects of one size with one text have members with one text. -/
theorem further_of_object {members others : List (String × Value)} (length : members.length = others.length)
    {rest more : List Char} (text : writeValue (.object members) ++ rest = writeValue (.object others) ++ more) :
    furtherMembers members ++ '}' :: rest = furtherMembers others ++ '}' :: more := by
  cases members <;> cases others
  · exact List.tail_eq_of_cons_eq text
  · contradiction
  · contradiction
  · rw [furtherMembers_cons, furtherMembers_cons]
    simpa [writeValue, writeObject, writeMembers, separated_cons, furtherMembers, writeMember] using text

mutual

/-- Equal values with one text are spelled alike, whatever stands behind the text. -/
theorem alike_of_writeValue : (a b : Value) → a.Distinct → same a b = true → (rest others : List Char) →
    writeValue a ++ rest = writeValue b ++ others → a.Alike b ∧ rest = others
  | a, b, distinct, same, behind, after, text => by
    cases a <;> cases b <;> simp only [Value.same, Bool.false_eq_true] at same
    · exact ⟨trivial, List.append_cancel_left text⟩
    · cases beq_iff_eq.mp same
      exact ⟨trivial, List.append_cancel_left text⟩
    · cases beq_iff_eq.mp same
      exact ⟨trivial, List.append_cancel_left text⟩
    · have sign := Binary64.negative_eq_of_writeFloat same text
      cases Binary64.eq_of_same same sign
      exact ⟨rfl, List.append_cancel_left text⟩
    · cases beq_iff_eq.mp same
      exact ⟨trivial, List.append_cancel_left text⟩
    · next items others =>
      exact alike_of_furtherItems items others distinct same behind after (further_of_array same text)
    · next members others =>
      rw [Bool.and_eq_true, beq_iff_eq] at same
      exact alike_of_furtherMembers members others distinct.1 distinct.2 same.1 same.2 behind after
        (further_of_object same.1 text)

theorem alike_of_furtherItems : (items others : List Value) → DistinctItems items →
    sameItems items others = true → (rest more : List Char) →
    furtherItems items ++ ']' :: rest = furtherItems others ++ ']' :: more →
    AlikeItems items others ∧ rest = more
  | [], others, _, same, rest, more, text => by
    cases others with
    | nil => exact ⟨trivial, List.tail_eq_of_cons_eq text⟩
    | cons => simp [sameItems] at same
  | item :: items, [], _, same, _, _, _ => by simp [sameItems] at same
  | item :: items, other :: others, ⟨own, distinct⟩, same, rest, more, text => by
    simp only [sameItems, Bool.and_eq_true] at same
    rw [furtherItems_cons, furtherItems_cons] at text
    obtain ⟨alike, behind⟩ := alike_of_writeValue item other own same.1 _ _ (List.tail_eq_of_cons_eq text)
    obtain ⟨further, equal⟩ := alike_of_furtherItems items others distinct same.2 rest more behind
    exact ⟨⟨alike, further⟩, equal⟩

theorem alike_of_furtherMembers : (members others : List (String × Value)) → (Dict.keys members).Nodup →
    DistinctMembers members → members.length = others.length → sameMembers members others = true →
    (rest more : List Char) →
    furtherMembers members ++ '}' :: rest = furtherMembers others ++ '}' :: more →
    AlikeMembers members others ∧ rest = more
  | [], others, _, _, length, _, rest, more, text => by
    cases others with
    | nil => exact ⟨trivial, List.tail_eq_of_cons_eq text⟩
    | cons => contradiction
  | _ :: _, [], _, _, length, _, _, _, _ => nomatch length
  | (name, a) :: members, (other, b) :: others, nodup, ⟨own, distinct⟩, length, same, rest, more, text => by
    rw [furtherMembers_cons, furtherMembers_cons] at text
    obtain ⟨named, value⟩ := writeString_append_inj (List.tail_eq_of_cons_eq text)
    subst named
    obtain ⟨first, further⟩ := sameMembers_cons nodup same
    obtain ⟨alike, behind⟩ := alike_of_writeValue a b own first _ _ (List.tail_eq_of_cons_eq value)
    obtain ⟨others, equal⟩ := alike_of_furtherMembers members others (List.nodup_cons.mp nodup).2 distinct
      (Nat.succ.inj length) further rest more behind
    exact ⟨⟨rfl, alike, others⟩, equal⟩

end

end Json

/-! ## Jobs -/

namespace Job

/-- No object among the arguments and variables names a key twice. -/
structure Distinct (job : Job) : Prop where
  args : Value.DistinctItems job.args
  vars : ∀ vars, job.vars = some vars → (Value.object vars).Distinct

/-- Jobs whose values are spelled alike. -/
structure Alike (job other : Job) : Prop where
  args : Value.AlikeItems job.args other.args
  vars : ∀ vars others, job.vars = some vars → other.vars = some others → Value.AlikeMembers vars others

/-! The document of a job is a value that is distinct, equal and alike as the job is. -/

theorem distinct_jobDocument {job : Job} (distinct : job.Distinct) : (Record.jobDocument job).Distinct := by
  obtain ⟨className, args, vars⟩ := job
  cases vars with
  | none => exact ⟨(by decide : ["class", "args"].Nodup), trivial, distinct.args, trivial⟩
  | some vars =>
    exact ⟨(by decide : ["class", "args", "vars"].Nodup), trivial, distinct.args, distinct.vars vars rfl,
      trivial⟩

theorem same_jobDocument {job other : Job} (same : job.same other = true) :
    Value.same (Record.jobDocument job) (Record.jobDocument other) = true := by
  obtain ⟨className, args, vars⟩ := job
  obtain ⟨name, items, others⟩ := other
  cases vars <;> cases others <;> simp only [Job.same, Bool.and_false, Bool.false_eq_true, Bool.and_true] at same
  · simpa [Record.jobDocument, Record.JobField.name, Value.same, Value.sameMembers, Dict.get?_cons] using same
  · simpa [Record.jobDocument, Record.JobField.name, Value.same, Value.sameMembers, Dict.get?_cons,
      and_assoc] using same

theorem alike_jobDocument_iff {job other : Job} (same : job.same other = true) :
    (Record.jobDocument job).Alike (Record.jobDocument other) ↔ job.Alike other := by
  obtain ⟨className, args, vars⟩ := job
  obtain ⟨name, items, others⟩ := other
  cases vars <;> cases others <;> simp only [Job.same, Bool.and_false, Bool.false_eq_true, Bool.and_true] at same
  · constructor
    · rintro ⟨-, -, -, args, -⟩
      exact ⟨args, nofun⟩
    · intro alike
      exact ⟨rfl, trivial, rfl, alike.args, trivial⟩
  · constructor
    · rintro ⟨-, -, -, args, -, vars, -⟩
      refine ⟨args, ?_⟩
      rintro _ _ ⟨⟩ ⟨⟩
      exact vars
    · intro alike
      exact ⟨rfl, trivial, rfl, alike.args, rfl, alike.vars _ _ rfl rfl, trivial⟩

theorem jobDocument_inj {job other : Job} (equal : Record.jobDocument job = Record.jobDocument other) :
    job = other := by
  obtain ⟨className, args, vars⟩ := job
  obtain ⟨name, items, others⟩ := other
  cases vars <;> cases others <;> cases equal <;> rfl

/-- Equal jobs have one payload just if they are spelled alike. -/
theorem encodeJob_eq_iff {job other : Job} (distinct : job.Distinct) (same : job.same other = true) :
    Codec.encodeJob job = Codec.encodeJob other ↔ job.Alike other := by
  have documents := same_jobDocument same
  rw [← alike_jobDocument_iff same]
  constructor
  · intro equal
    have text : Record.writeJob job = Record.writeJob other := String.ofList_injective equal
    rw [← Record.writeValue_jobDocument, ← Record.writeValue_jobDocument] at text
    exact (Json.alike_of_writeValue _ _ (distinct_jobDocument distinct) documents [] []
      (congrArg (· ++ []) text)).1
  · intro alike
    have equal := Value.eq_of_alike _ _ (distinct_jobDocument distinct) documents alike
    rw [jobDocument_inj equal]

end Job

end JobQueue
