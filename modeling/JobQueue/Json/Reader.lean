import JobQueue.Json.Fault

/-! # Readers

A reader takes a text from its front and answers what it read and the rest, or a fault. It always takes
something, and says so in its type, so a repetition of readers ends because the text does.
-/

namespace JobQueue.Json

/-- What was read and the rest of the text, or a fault. -/
abbrev Outcome (α : Type) := Except Fault (α × List Char)

/-- A function from a text to an outcome whose rest is always shorter than the text. -/
structure Reader (α : Type) where
  run : List Char → Outcome α
  shorter : ∀ {text : List Char} {a : α} {rest : List Char},
    run text = .ok (a, rest) → rest.length < text.length

/-- One step of a repetition: from a state, either an item and the next state, or the end. -/
structure Step (σ α : Type) where
  run : σ → List Char → Outcome (Option (α × σ))
  shorter : ∀ {state : σ} {text : List Char} {next : Option (α × σ)} {rest : List Char},
    run state text = .ok (next, rest) → rest.length < text.length

/-- Goes on with the rest of the text. -/
def Outcome.andThen {α β : Type} (first : Outcome α) (next : α → List Char → Outcome β) : Outcome β :=
  match first with
  | .ok (a, rest) => next a rest
  | .error fault => .error fault

theorem Outcome.andThen_eq_ok {α β : Type} {first : Outcome α} {next : α → List Char → Outcome β}
    {b : β} {left : List Char} :
    first.andThen next = .ok (b, left) ↔
      ∃ a rest, first = .ok (a, rest) ∧ next a rest = .ok (b, left) := by
  cases first with
  | error fault => simp [andThen]
  | ok pair =>
    obtain ⟨a, rest⟩ := pair
    constructor
    · exact fun tail => ⟨a, rest, rfl, tail⟩
    · rintro ⟨_, _, equal, tail⟩
      cases equal
      exact tail

theorem Outcome.andThen_eq_error {α β : Type} {first : Outcome α} {next : α → List Char → Outcome β}
    {fault : Fault} : first.andThen next = .error fault ↔
      first = .error fault ∨ ∃ a rest, first = .ok (a, rest) ∧ next a rest = .error fault := by
  cases first with
  | error other => simp [andThen]
  | ok pair =>
    obtain ⟨a, rest⟩ := pair
    constructor
    · exact fun tail => .inr ⟨a, rest, rfl, tail⟩
    · rintro (impossible | ⟨_, _, equal, tail⟩)
      · contradiction
      · cases equal
        exact tail

/-- Where going on cannot fail, only the first outcome does. -/
theorem Outcome.andThen_ok_eq_error {α β : Type} {first : Outcome α} {f : α → List Char → β × List Char}
    {fault : Fault} : (first.andThen fun a rest => .ok (f a rest)) = .error fault ↔ first = .error fault := by
  rw [andThen_eq_error]
  exact ⟨fun refused => refused.resolve_right nofun, .inl⟩

namespace Reader

variable {α β : Type}

/-- Changes what was read. -/
def map (reader : Reader α) (f : α → β) : Reader β where
  run text := (reader.run text).andThen fun a rest => .ok (f a, rest)
  shorter {text b rest} read := by
    obtain ⟨a, left, found, tail⟩ := Outcome.andThen_eq_ok.mp read
    cases tail
    exact reader.shorter found

/-- Judges what was read, and reports a refusal right behind it. -/
def judge (reader : Reader α) (f : α → Except Cause β) : Reader β where
  run text := (reader.run text).andThen fun a rest => match f a with
    | .ok b => .ok (b, rest)
    | .error cause => .error (faultAt cause rest)
  shorter {text b rest} read := by
    obtain ⟨a, left, found, tail⟩ := Outcome.andThen_eq_ok.mp read
    split at tail
    · cases tail
      exact reader.shorter found
    · cases tail

end Reader

namespace Step

variable {σ α : Type}

/-- Repeats a step to its end and lists the items. -/
def collect (step : Step σ α) (state : σ) (text : List Char) : Outcome (List α) :=
  match taken : step.run state text with
  | .error fault => .error fault
  | .ok (none, rest) => .ok ([], rest)
  | .ok (some (item, next), rest) =>
    have := step.shorter taken
    match collect step next rest with
    | .error fault => .error fault
    | .ok (items, left) => .ok (item :: items, left)
termination_by text.length

theorem collect_shorter (step : Step σ α) {state : σ} {text : List Char} {items : List α}
    {rest : List Char} (read : step.collect state text = .ok (items, rest)) :
    rest.length < text.length := by
  fun_induction collect step state text generalizing items rest with
  | case1 state text fault taken => cases read
  | case2 state text left taken =>
    cases read
    exact step.shorter taken
  | case3 state text item next left taken this fault failed ih => cases read
  | case4 state text item next left taken this others final found ih =>
    cases read
    exact Nat.lt_trans (ih found) this

/-- A repetition as a reader. -/
def reader (step : Step σ α) (state : σ) : Reader (List α) where
  run := step.collect state
  shorter := step.collect_shorter

end Step

/-- The four characters that may stand between the parts of a text. -/
def isSpace (c : Char) : Bool := c = ' ' || c = '\n' || c = '\t' || c = '\r'

/-- The text from its first character that is not a space. -/
def skipSpace (text : List Char) : List Char := text.dropWhile isSpace

theorem skipSpace_length_le (text : List Char) : (skipSpace text).length ≤ text.length :=
  (List.dropWhile_sublist _).length_le

/-- Demands the end of the text. -/
def requireEnd (text : List Char) : Except Fault Unit :=
  match skipSpace text with
  | [] => .ok ()
  | rest => .error (faultPast .trailingCharacters rest)

/-- Matches the rest of a word letter by letter; the word as a whole means something. -/
def word {α : Type} (meaning : α) : List Char → List Char → Outcome α
  | [], text => .ok (meaning, text)
  | _ :: _, [] => .error (faultAt .endInValue [])
  | letter :: letters, c :: rest =>
    if c = letter then word meaning letters rest else .error (faultPast .expectedIdentifier (c :: rest))

theorem word_length_le {α : Type} {meaning a : α} {letters text rest : List Char}
    (read : word meaning letters text = .ok (a, rest)) : rest.length ≤ text.length := by
  induction letters generalizing text with
  | nil => cases read; exact Nat.le_refl _
  | cons letter letters ih =>
    cases text with
    | nil => cases read
    | cons c text =>
      simp only [word] at read
      split at read
      · exact Nat.le_succ_of_le (ih read)
      · cases read

/-- Reads from the first character that is not a space. The reading of what stands there must take
something. -/
def Reader.start {α : Type} (read : Char → List Char → Outcome α) (atEnd : Cause)
    (shorter : ∀ {c : Char} {text : List Char} {a : α} {rest : List Char},
      read c text = .ok (a, rest) → rest.length ≤ text.length) : Reader α where
  run text := match skipSpace text with
    | [] => .error (faultPast atEnd [])
    | c :: rest => read c rest
  shorter {text a rest} done := by
    have bound := skipSpace_length_le text
    split at done
    · cases done
    · next c left found =>
      rw [found, List.length_cons] at bound
      have := shorter done
      omega

end JobQueue.Json
