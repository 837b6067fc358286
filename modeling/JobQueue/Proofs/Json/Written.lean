import JobQueue.Json.Typed
import JobQueue.Json.Write
import JobQueue.Proofs.Json.Numeral
import JobQueue.Proofs.Json.StringReader

/-! # Written texts and their readers

`Settles reader text deep a` says what a reader makes of a text that was written: it reads `a` and stops
at the end of the text, whatever delimiter follows, unless the text nests too deep for it (`deep`), and
then it refuses the text for just that reason. `Steps` says the same of a repetition and the parts it goes
through. Arrays, objects and records are repetitions, so one induction settles all three.
-/

namespace JobQueue.Json

/-- Only the characters that go on with an array or an object may follow a value. -/
def Delimited (rest : List Char) : Prop := ∀ c, rest.head? = some c → c = ',' ∨ c = ']' ∨ c = '}'

theorem delimited_nil : Delimited [] := nofun

theorem delimited_cons {c : Char} (rest : List Char) (delimiter : c = ',' ∨ c = ']' ∨ c = '}') :
    Delimited (c :: rest) := by
  intro d head
  rw [List.head?_cons] at head
  cases head
  exact delimiter

/-- No delimiter goes on with a numeral. -/
theorem Delimited.endsNumeral {rest : List Char} (delimited : Delimited rest) : EndsNumeral rest := by
  cases rest with
  | nil => rfl
  | cons c rest => rcases delimited c rfl with rfl | rfl | rfl <;> rfl

theorem skipSpace_cons {c : Char} {rest : List Char} (visible : isSpace c = false) :
    skipSpace (c :: rest) = c :: rest := by
  rw [skipSpace, List.dropWhile_cons, visible]
  rfl

/-- What a reader makes of a written text: `a`, or a refusal if the text nests too deep. -/
structure Settles {α : Type} (reader : Reader α) (text : List Char) (deep : Prop) (a : α) : Prop where
  opens : ∃ c rest, text = c :: rest ∧ isSpace c = false ∧ c ≠ ']'
  reads : ¬ deep → ∀ rest, Delimited rest → reader.run (text ++ rest) = .ok (a, rest)
  refuses : deep → ∀ rest, Delimited rest → ∃ left, reader.run (text ++ rest) = .error ⟨.tooDeep, left⟩

namespace Settles

variable {α β : Type} {reader : Reader α} {text : List Char} {deep : Prop} {a : α}

theorem congr (settled : Settles reader text deep a) {other : Prop} (same : deep ↔ other) :
    Settles reader text other a := propext same ▸ settled

theorem judge (settled : Settles reader text deep a) {f : α → Except Cause β} {b : β}
    (accepted : f a = .ok b) : Settles (reader.judge f) text deep b where
  opens := settled.opens
  reads shallow rest delimited := by
    simp only [Reader.judge, settled.reads shallow rest delimited, Outcome.andThen, accepted]
  refuses tooDeep rest delimited := by
    obtain ⟨left, refused⟩ := settled.refuses tooDeep rest delimited
    exact ⟨left, by simp only [Reader.judge, refused, Outcome.andThen]⟩

/-- A text that is not null is read by the reader behind the option. -/
theorem optional (settled : Settles reader text deep a) (someText : text.head? ≠ some 'n') :
    Settles (optional reader) text deep (some a) where
  opens := settled.opens
  reads shallow rest delimited := by
    obtain ⟨c, tail, rfl, visible, _⟩ := settled.opens
    have read := settled.reads shallow rest delimited
    rw [List.cons_append] at read ⊢
    simp only [Json.optional, skipSpace_cons visible]
    split
    · next equal =>
      cases equal
      exact absurd rfl someText
    · rw [read]
      rfl
  refuses tooDeep rest delimited := by
    obtain ⟨c, tail, rfl, visible, _⟩ := settled.opens
    obtain ⟨left, refused⟩ := settled.refuses tooDeep rest delimited
    refine ⟨left, ?_⟩
    rw [List.cons_append] at refused ⊢
    simp only [Json.optional, skipSpace_cons visible]
    split
    · next equal =>
      cases equal
      exact absurd rfl someText
    · rw [refused]
      rfl

/-- A scalar never nests too deep. -/
theorem scalar {c : Char} {tail : List Char} (visible : isSpace c = false) (item : c ≠ ']')
    (reads : ∀ rest, Delimited rest → reader.run (c :: (tail ++ rest)) = .ok (a, rest)) (shallow : ¬ deep) :
    Settles reader (c :: tail) deep a where
  opens := ⟨c, tail, rfl, visible, item⟩
  reads _ := reads
  refuses tooDeep := absurd tooDeep shallow

/-- A written text that stands alone is read as a whole or refused as a whole. -/
theorem readAll (settled : Settles reader text deep a) :
    (¬ deep → readAll reader text = .ok a) ∧
    (deep → ∃ left, Json.readAll reader text = .error ⟨.tooDeep, left⟩) := by
  constructor
  · intro shallow
    have read := settled.reads shallow [] delimited_nil
    rw [List.append_nil] at read
    simp only [Json.readAll, read]
    rfl
  · intro tooDeep
    obtain ⟨left, refused⟩ := settled.refuses tooDeep [] delimited_nil
    rw [List.append_nil] at refused
    exact ⟨left, by simp only [Json.readAll, refused]⟩

end Settles

/-! ## Repetitions -/

/-- What stands before a part: nothing before the first, a comma before any other. -/
def lead (first : Bool) : List Char := if first then [] else [',']

/-- Parts with commas between them, and one in front unless they begin with the first. -/
def joined (first : Bool) (texts : List (List Char)) : List Char :=
  if first then separated texts else texts.flatMap fun text => ',' :: text

theorem joined_nil (first : Bool) : joined first [] = [] := by cases first <;> rfl

theorem joined_cons (first : Bool) (text : List Char) (texts : List (List Char)) :
    joined first (text :: texts) = lead first ++ (text ++ joined false texts) := by
  have split (text : List Char) (texts : List (List Char)) :
      separated (text :: texts) = text ++ joined false texts := by
    induction texts generalizing text with
    | nil => simp [separated, joined]
    | cons other texts ih => simp [separated, ih, joined]
  cases first with
  | true => exact split text texts
  | false => rfl

theorem delimited_joined {close : Char} (closes : close = ']' ∨ close = '}') (texts : List (List Char))
    (rest : List Char) : Delimited (joined false texts ++ close :: rest) := by
  cases texts with
  | nil => exact delimited_cons rest (.inr closes)
  | cons text texts => exact delimited_cons _ (.inl rfl)

section Repetitions

variable {σ α β : Type}

theorem Outcome.andThen_ok (read : Outcome α) : (read.andThen fun a rest => .ok (a, rest)) = read := by
  cases read <;> rfl

/-- What a step makes of one written part. Whether a state is the first decides on the comma. -/
structure Takes (step : Step σ α) (first : σ → Bool) (state : σ) (text : List Char) (deep : Prop) (a : α)
    (next : σ) : Prop where
  begun : first next = false
  reads : ¬ deep → ∀ rest, Delimited rest →
    step.run state (lead (first state) ++ (text ++ rest)) = .ok (some (a, next), rest)
  refuses : deep → ∀ rest, Delimited rest →
    ∃ left, step.run state (lead (first state) ++ (text ++ rest)) = .error ⟨.tooDeep, left⟩

/-- What a repetition makes of written parts up to the closing bracket. -/
inductive Steps (step : Step σ α) (first : σ → Bool) (close : Char) :
    σ → List (List Char) → Prop → List α → Prop
  | done {state : σ} {deep : Prop} (closes : ∀ rest, step.run state (close :: rest) = .ok (none, rest))
      (shallow : ¬ deep) : Steps step first close state [] deep []
  | next {state next : σ} {text : List Char} {texts : List (List Char)} {deep deeper either : Prop} {a : α}
      {others : List α} (takes : Takes step first state text deep a next)
      (rest : Steps step first close next texts deeper others) (split : either ↔ deep ∨ deeper) :
      Steps step first close state (text :: texts) either (a :: others)

/-- A repetition collects the parts, or is stopped by one that nests too deep. -/
theorem Steps.collect {step : Step σ α} {first : σ → Bool} {close : Char} {state : σ}
    {texts : List (List Char)} {deep : Prop} {items : List α}
    (steps : Steps step first close state texts deep items) (closes : close = ']' ∨ close = '}')
    (rest : List Char) :
    (¬ deep → step.collect state (joined (first state) texts ++ close :: rest) = .ok (items, rest)) ∧
      (deep → ∃ left,
        step.collect state (joined (first state) texts ++ close :: rest) = .error ⟨.tooDeep, left⟩) := by
  induction steps with
  | done closing shallow =>
    rw [joined_nil]
    constructor
    · intro _
      exact Step.collect_end (closing rest)
    · intro deep
      exact absurd deep shallow
  | @next state next text texts deep deeper either a others takes _ split ih =>
    rw [joined_cons, List.append_assoc, List.append_assoc]
    have delimited := delimited_joined closes texts rest
    rw [takes.begun] at ih
    obtain ⟨collects, fails⟩ := ih
    by_cases here : deep
    · obtain ⟨left, refused⟩ := takes.refuses here _ delimited
      constructor
      · intro shallow
        exact absurd (split.mpr (.inl here)) shallow
      · intro _
        exact ⟨left, Step.collect_fault refused⟩
    · rw [Step.collect_item (takes.reads here _ delimited)]
      constructor
      · intro shallow
        rw [collects fun behind => shallow (split.mpr (.inr behind))]
        rfl
      · intro tooDeep
        obtain ⟨left, refused⟩ := fails ((split.mp tooDeep).resolve_left here)
        exact ⟨left, by rw [refused]; rfl⟩

/-- A reader that goes through parts between brackets is settled by the parts, one level further down. -/
theorem nested_settles (reader : Nat → Reader β) (finish : List α → β) {step : Nat → Step σ α}
    {first : σ → Bool} {start : σ} (begin : Char) {close : Char}
    (closes : close = ']' ∨ close = '}') (visible : isSpace begin = false)
    (item : begin ≠ ']') (starts : first start = true) {texts : List (List Char)} {nesting : Nat}
    {items : List α} (all : ∀ depth, Steps (step depth) first close start texts (depth < nesting) items)
    (stops : ∀ text, ∃ left, (reader 0).run (begin :: text) = .error ⟨.tooDeep, left⟩)
    (goes : ∀ depth text, (reader (depth + 1)).run (begin :: text) =
      ((step depth).collect start text).andThen fun items rest => .ok (finish items, rest)) (depth : Nat) :
    Settles (reader depth) (begin :: (separated texts ++ [close])) (depth < nesting + 1) (finish items) where
  opens := ⟨begin, _, rfl, visible, item⟩
  reads shallow rest _ := by
    cases depth with
    | zero => exact absurd (Nat.succ_pos nesting) shallow
    | succ depth =>
      have read := ((all depth).collect closes rest).1 fun deep => shallow (Nat.succ_lt_succ deep)
      rw [starts] at read
      rw [List.cons_append, List.append_assoc, goes]
      exact congrArg (Outcome.andThen · _) read
  refuses tooDeep rest _ := by
    cases depth with
    | zero => exact stops _
    | succ depth =>
      obtain ⟨left, refused⟩ := ((all depth).collect closes rest).2 (Nat.lt_of_succ_lt_succ tooDeep)
      rw [starts] at refused
      refine ⟨left, ?_⟩
      rw [List.cons_append, List.append_assoc, goes]
      exact congrArg (Outcome.andThen · _) refused

end Repetitions

section Items

variable {α : Type} {item : Reader α} {text : List Char} {deep : Prop} {a : α}

/-- The first item of an array is read as it stands, each other one behind its comma. -/
theorem nextElement_opens {c : Char} {rest : List Char} (visible : isSpace c = false) (more : c ≠ ']')
    (first : Bool) :
    nextElement item first (lead first ++ c :: rest) =
      (item.run (c :: rest)).andThen fun a left => .ok (some (a, false), left) := by
  cases first with
  | true =>
    simp only [nextElement, lead, if_true, List.nil_append, skipSpace_cons visible]
    rw [if_neg more]
  | false =>
    simp only [nextElement, lead, Bool.false_eq_true, if_false, List.cons_append, List.nil_append,
      skipSpace_cons (show isSpace ',' = false from rfl), skipSpace_cons visible]
    rw [if_neg (by decide), if_pos trivial, if_neg more]

/-- An item of an array is taken as its reader settles it. -/
theorem Settles.takesItem (settled : Settles item text deep a) (first : Bool) :
    Takes (elementStep item) id first text deep a false where
  begun := rfl
  reads shallow rest delimited := by
    obtain ⟨c, tail, rfl, visible, more⟩ := settled.opens
    have read := settled.reads shallow rest delimited
    rw [List.cons_append] at read ⊢
    change nextElement item first _ = _
    rw [id, nextElement_opens visible more, read]
    rfl
  refuses tooDeep rest delimited := by
    obtain ⟨c, tail, rfl, visible, more⟩ := settled.opens
    obtain ⟨left, refused⟩ := settled.refuses tooDeep rest delimited
    refine ⟨left, ?_⟩
    rw [List.cons_append] at refused ⊢
    change nextElement item first _ = _
    rw [id, nextElement_opens visible more, refused]
    rfl

theorem elementStep_closes (first : Bool) (rest : List Char) :
    (elementStep item).run first (']' :: rest) = .ok (none, rest) := by
  cases first <;> rfl

/-- The name of a member is read with its quotes, up to the colon. -/
theorem nextName_written (first : Bool) (name : String) (rest : List Char) :
    nextName first (lead first ++ (writeString name ++ rest)) = .ok (some name, rest) := by
  have quoted : isSpace '"' = false := rfl
  have body : stringBody.run ((name.toList.flatMap escapeChar ++ ['"']) ++ rest) = .ok (name, rest) := by
    rw [List.append_assoc]
    exact stringBody_escaped name rest
  cases first with
  | true =>
    simp only [nextName, lead, if_true, List.nil_append, writeString, List.cons_append, skipSpace_cons quoted]
    rw [if_neg (by decide), body]
    rfl
  | false =>
    simp only [nextName, lead, Bool.false_eq_true, if_false, List.nil_append, writeString, List.cons_append,
      skipSpace_cons quoted, skipSpace_cons (show isSpace ',' = false from rfl)]
    rw [if_neg (by decide), if_pos trivial, if_pos trivial, body]
    rfl

theorem behindColon_written (text : List Char) : behindColon item (':' :: text) = item.run text := rfl

/-- A member of an object is taken as the reader of its value settles that. -/
theorem Settles.takesMember (settled : Settles item text deep a) (first : Bool) (name : String) :
    Takes (memberStep item) id first (writeMember name text) deep (name, a) false where
  begun := rfl
  reads shallow rest delimited := by
    rw [writeMember, List.append_assoc, List.cons_append]
    simp only [memberStep, id, nextName_written, Outcome.andThen, behindColon_written,
      settled.reads shallow rest delimited]
  refuses tooDeep rest delimited := by
    obtain ⟨left, refused⟩ := settled.refuses tooDeep rest delimited
    refine ⟨left, ?_⟩
    rw [writeMember, List.append_assoc, List.cons_append]
    simp only [memberStep, id, nextName_written, Outcome.andThen, behindColon_written, refused]

theorem memberStep_closes (first : Bool) (rest : List Char) :
    (memberStep item).run first ('}' :: rest) = .ok (none, rest) := by
  cases first <;> rfl

end Items

/-! ## Typed readers -/

/-- A string is read back, whatever its characters. -/
theorem string_settles (expected s : String) : Settles (string expected) (writeString s) False s := by
  refine Settles.scalar rfl (by decide) ?_ id
  intro rest _
  rw [List.append_assoc]
  exact stringBody_escaped s rest

theorem bool_settles (expected : String) (flag : Bool) :
    Settles (bool expected) (writeBool flag) False flag := by
  cases flag with
  | true => exact Settles.scalar rfl (by decide) (fun _ _ => rfl) id
  | false => exact Settles.scalar rfl (by decide) (fun _ _ => rfl) id

/-- An array of one kind is settled by its items, one level further down. -/
theorem list_settles {α : Type} {expected : String} {item : Nat → Reader α} {texts : List (List Char)}
    {nesting : Nat} {items : List α}
    (all : ∀ depth, Steps (elementStep (item depth)) id ']' true texts (depth < nesting) items)
    (depth : Nat) :
    Settles (list expected item depth) (writeArray texts) (depth < nesting + 1) items :=
  nested_settles (list expected item) id '[' (.inl rfl) rfl (by decide) rfl all (fun _ => ⟨_, rfl⟩)
    (fun _ _ => (Outcome.andThen_ok _).symm) depth

end JobQueue.Json
