import JobQueue.Json.StringReader
import JobQueue.Json.Write

/-! # Strings written and read

What is written inside a string is read back character by character, whatever follows the closing quote.
Escapes with a letter, escapes with four digits and characters that stand for themselves are the three
ways in which a character is written.
-/

namespace JobQueue.Json

namespace Step

variable {σ α : Type} {step : Step σ α} {state next : σ} {text rest : List Char} {item : α} {fault : Fault}

/-- A repetition is its step, and the repetition behind that. -/
theorem collect_eq (step : Step σ α) (state : σ) (text : List Char) :
    step.collect state text = (step.run state text).andThen fun
      | none, rest => .ok ([], rest)
      | some (item, next), rest =>
        (step.collect next rest).andThen fun items left => .ok (item :: items, left) := by
  rw [collect]
  split
  · next failed => rw [failed]; rfl
  · next ended => rw [ended]; rfl
  · next item after left more =>
    dsimp only
    rw [more]
    change _ = (step.collect after left).andThen _
    cases step.collect after left <;> rfl

/-- A repetition whose step answers the end has no more items. -/
theorem collect_end (taken : step.run state text = .ok (none, rest)) :
    step.collect state text = .ok ([], rest) := by
  rw [collect_eq, taken]
  rfl

/-- A repetition goes on from the item its step answers. -/
theorem collect_item (taken : step.run state text = .ok (some (item, next), rest)) :
    step.collect state text =
      (step.collect next rest).andThen fun items left => .ok (item :: items, left) := by
  rw [collect_eq, taken]
  rfl

/-- A repetition whose step fails, fails. -/
theorem collect_fault (taken : step.run state text = .error fault) :
    step.collect state text = .error fault := by
  rw [collect_eq, taken]
  rfl

end Step

private theorem hexDigit?_digitChar {n : Nat} (small : n < 16) :
    Text.hexDigit? (Nat.digitChar n) = some n := by
  revert n
  decide

/-- The four digits of a control character. -/
theorem hexNumber?_control {n : Nat} (small : n < 0x20) (rest : List Char) :
    hexNumber? ('0' :: '0' :: Nat.digitChar (n / 16) :: Nat.digitChar (n % 16) :: rest) = some (n, rest) := by
  have high := hexDigit?_digitChar (n := n / 16) (by omega)
  have low := hexDigit?_digitChar (n := n % 16) (by omega)
  have zero : Text.hexDigit? '0' = some 0 := rfl
  have value : ((0 * 16 + 0) * 16 + n / 16) * 16 + n % 16 = n := by omega
  simp only [hexNumber?, zero, high, low, Option.bind_eq_bind, Option.bind_some, value]
  rfl

private theorem hexFour_control {n : Nat} (small : n < 0x20) (rest : List Char) :
    hexFour ('0' :: '0' :: Nat.digitChar (n / 16) :: Nat.digitChar (n % 16) :: rest) = .ok (n, rest) := by
  have size : ¬ bytes ['0', '0', Nat.digitChar (n / 16), Nat.digitChar (n % 16)] < 4 := by
    revert n
    decide
  rw [hexFour, hexNumber?_control small]
  exact if_neg size

private theorem escapeSequence_control {c : Char} (control : c.toNat < 0x20) (rest : List Char) :
    escapeSequence ('u' :: '0' :: '0' :: Nat.digitChar (c.toNat / 16) ::
      Nat.digitChar (c.toNat % 16) :: rest) = .ok (c, rest) := by
  have high : ¬ isHighSurrogate c.toNat = true := by simp [isHighSurrogate]; omega
  have low : ¬ isLowSurrogate c.toNat = true := by simp [isLowSurrogate]; omega
  rw [escapeSequence, if_pos rfl, unicodeEscape, hexFour_control control]
  simp only [Outcome.andThen]
  rw [if_neg low, if_neg high, Char.ofNat_toNat]

/-- A character that is written in a string is read back. -/
theorem stringStep_escapeChar (c : Char) (rest : List Char) :
    stringStep.run () (escapeChar c ++ rest) = .ok (some (c, ()), rest) := by
  unfold escapeChar
  split
  · next quote => subst quote; rfl
  next quote =>
  split
  · next slash => subst slash; rfl
  next slash =>
  split
  · next erase => subst erase; rfl
  split
  · next feed => subst feed; rfl
  split
  · next line => subst line; rfl
  split
  · next carriage => subst carriage; rfl
  split
  · next tab => subst tab; rfl
  split
  · next control =>
    simp only [stringStep, List.cons_append, List.nil_append, escapeSequence_control control]
    rfl
  · next control =>
    simp only [stringStep, List.cons_append, List.nil_append]
    rw [if_neg quote, if_neg slash, if_neg control]

/-- A string is read back from what is written for it. -/
theorem stringBody_escaped (s : String) (rest : List Char) :
    stringBody.run (s.toList.flatMap escapeChar ++ '"' :: rest) = .ok (s, rest) := by
  have chars : ∀ cs : List Char,
      stringStep.collect () (cs.flatMap escapeChar ++ '"' :: rest) = .ok (cs, rest) := by
    intro cs
    induction cs with
    | nil => exact Step.collect_end rfl
    | cons c cs ih =>
      rw [List.flatMap_cons, List.append_assoc, Step.collect_item (stringStep_escapeChar c _), ih]
      rfl
  have read := chars s.toList
  simp only [stringBody, Reader.map, Step.reader, read]
  simp [Outcome.andThen]

end JobQueue.Json
