import JobQueue.Json.Schema
import JobQueue.Proofs.Json.Spelling
import JobQueue.Proofs.Json.Written

/-! # What a reading depends on

A reading is confined to what it takes from the front of a text: whatever stands behind that makes no
difference, and is what is left. Only a numeral is not ended by anything of its own, so its reading peeks at
the first character that it leaves; an array or an object takes that character, so its reading does not peek.
-/

namespace JobQueue.Json

/-- A reading depends on what it takes and, where it peeks, on the first character that it leaves. -/
def Confined {α : Type} (peeks : α → Prop) (read : List Char → Outcome α) : Prop :=
  ∀ ⦃text a rest⦄, read text = .ok (a, rest) → ∃ taken, text = taken ++ rest ∧
    ∀ other, (peeks a → other.head? = rest.head?) → read (taken ++ other) = .ok (a, other)

/-- A reading that may peek. -/
abbrev Peeking {α : Type} (read : List Char → Outcome α) : Prop := Confined (fun _ => True) read

/-- A reading that does not peek. -/
abbrev Closed {α : Type} (read : List Char → Outcome α) : Prop := Confined (fun _ => False) read

/-- A text is its spaces and, behind them, a first character that is none. -/
theorem exists_blank {text rest : List Char} {c : Char} (visible : skipSpace text = c :: rest) :
    ∃ space, Blank space ∧ isSpace c = false ∧ text = space ++ c :: rest := by
  refine ⟨text.takeWhile isSpace, List.all_eq_true.mp List.all_takeWhile, ?_, ?_⟩
  · have first := List.head?_dropWhile_not isSpace text
    rw [skipSpace] at visible
    rw [visible] at first
    simpa using first
  · rw [← visible]
    exact List.takeWhile_append_dropWhile.symm

theorem skipSpace_skipSpace (text : List Char) : skipSpace (skipSpace text) = skipSpace text := by
  cases visible : skipSpace text with
  | nil => rfl
  | cons c rest =>
    obtain ⟨-, -, first, -⟩ := exists_blank visible
    exact skipSpace_cons first

namespace Confined

variable {α β : Type} {peeks : α → Prop} {sees : β → Prop} {read : List Char → Outcome α}

theorem mono {others : α → Prop} (confined : Confined peeks read) (more : ∀ a, peeks a → others a) :
    Confined others read := by
  intro text a rest done
  obtain ⟨taken, whole, same⟩ := confined done
  exact ⟨taken, whole, fun other next => same other fun peek => next (more a peek)⟩

/-- A reading that does not peek is one that may. -/
theorem peeking (closed : Closed read) : Peeking read := closed.mono fun _ => False.elim

theorem done (a : α) : Confined peeks fun text => .ok (a, text) := by
  intro text b rest done
  cases done
  exact ⟨[], rfl, fun _ _ => rfl⟩

theorem failing (fails : ∀ text a rest, read text ≠ .ok (a, rest)) : Confined peeks read :=
  fun text a rest done => absurd done (fails text a rest)

theorem failed {fault : List Char → Fault} : Confined peeks fun text => .error (fault text) :=
  failing fun _ _ _ done => by cases done

/-- What one reading takes, and another behind it. If the first peeks, so does the second, unless the second
takes what the first has peeked at. -/
theorem andThen {next : α → List Char → Outcome β} (first : Confined peeks read)
    (second : ∀ a, Confined sees (next a))
    (further : ∀ {a text b rest}, next a text = .ok (b, rest) → peeks a →
      sees b ∨ rest.length < text.length) :
    Confined sees fun text => (read text).andThen next := by
  intro text b rest done
  obtain ⟨a, middle, one, other⟩ := Outcome.andThen_eq_ok.mp done
  obtain ⟨taken, rfl, same⟩ := first one
  obtain ⟨more, rfl, again⟩ := second a other
  refine ⟨taken ++ more, (List.append_assoc ..).symm, fun left ends => ?_⟩
  rw [List.append_assoc]
  refine Outcome.andThen_eq_ok.mpr ⟨a, more ++ left, same _ fun peek => ?_, again left ends⟩
  cases more with
  | cons c more => rfl
  | nil => exact ends ((further other peek).resolve_right (Nat.lt_irrefl _))

theorem map {f : α → β} (confined : Confined peeks read) (kept : ∀ a, peeks a → sees (f a)) :
    Confined sees fun text => (read text).andThen fun a rest => .ok (f a, rest) := by
  refine confined.andThen (fun a => done (f a)) fun {a _ _ _} equal peek => .inl ?_
  cases equal
  exact kept a peek

/-- A reading of what stands behind a first character. -/
theorem of_cons (atEnd : (read []).toOption = none)
    (each : ∀ c, Confined peeks fun text => read (c :: text)) : Confined peeks read := by
  intro text a rest done
  cases text with
  | nil =>
    rw [done] at atEnd
    contradiction
  | cons c text =>
    obtain ⟨taken, rfl, same⟩ := each c done
    exact ⟨c :: taken, rfl, same⟩

/-- A reading that takes something takes the first character. -/
theorem behind (confined : Confined peeks read)
    (shorter : ∀ {text a rest}, read text = .ok (a, rest) → rest.length < text.length) (c : Char) :
    Confined peeks fun text => read (c :: text) := by
  intro text a rest done
  obtain ⟨taken, whole, same⟩ := confined done
  have shorter := shorter done
  cases taken with
  | nil =>
    rw [whole] at shorter
    exact absurd shorter (Nat.lt_irrefl _)
  | cons d taken =>
    obtain ⟨rfl, rfl⟩ := List.cons.inj whole
    exact ⟨taken, rfl, same⟩

/-- A reading that skips spaces is a reading of what stands behind them. -/
theorem of_skipSpace (skips : ∀ text, read (skipSpace text) = read text)
    (atEnd : (read []).toOption = none)
    (each : ∀ c, isSpace c = false → Confined peeks fun text => read (c :: text)) :
    Confined peeks read := by
  intro text a rest done
  rw [← skips] at done
  cases visible : skipSpace text with
  | nil =>
    rw [visible] at done
    rw [done] at atEnd
    contradiction
  | cons c left =>
    rw [visible] at done
    obtain ⟨space, blank, first, rfl⟩ := exists_blank visible
    obtain ⟨taken, rfl, same⟩ := each c first done
    refine ⟨space ++ c :: taken, by rw [List.append_assoc, List.cons_append], fun other ends => ?_⟩
    rw [List.append_assoc, List.cons_append, ← skips, skipSpace_blank_cons blank first]
    exact same other ends

theorem start {body : Char → List Char → Outcome α} {fault : Fault}
    (each : ∀ c, Confined peeks (body c)) :
    Confined peeks fun text => match skipSpace text with
      | [] => .error fault
      | c :: rest => body c rest := by
  refine of_skipSpace (fun text => ?_) rfl fun c visible => ?_
  · simp only [skipSpace_skipSpace]
  · simp only [skipSpace_cons visible]
    exact each c

theorem judge {reader : Reader α} {f : α → Except Cause β} (closed : Closed reader.run) :
    Closed (reader.judge f).run := by
  refine closed.andThen (fun a => ?_) fun _ => False.elim
  cases judged : f a with
  | ok b => exact done b
  | error cause => exact failed

end Confined

/-! ## Repetitions -/

namespace Step

variable {σ α : Type} {step : Step σ α}

/-- A repetition does not peek, if its step peeks at most behind an item: the next step takes the character
that has been peeked at. -/
theorem closed (each : ∀ state, Confined (fun next => next.isSome = true) (step.run state)) (state : σ) :
    Closed (step.reader state).run := by
  intro text items rest read
  change step.collect state text = _ at read
  change ∃ taken, text = taken ++ rest ∧
    ∀ other, (False → _) → step.collect state (taken ++ other) = .ok (items, other)
  fun_induction collect step state text generalizing items rest with
  | case1 state text fault taken => cases read
  | case2 state text left ended =>
    cases read
    obtain ⟨taken, whole, same⟩ := each state ended
    exact ⟨taken, whole, fun other _ => collect_end (same other fun more => absurd more Bool.false_ne_true)⟩
  | case3 state text item next left more this fault failed ih => cases read
  | case4 state text item next left more this others final behind ih =>
    cases read
    have shorter := step.collect_shorter behind
    obtain ⟨taken, rfl, same⟩ := each state more
    obtain ⟨after, rfl, again⟩ := ih behind
    refine ⟨taken ++ after, (List.append_assoc ..).symm, fun other _ => ?_⟩
    have head : (after ++ other).head? = (after ++ final).head? := by
      cases after with
      | nil => exact absurd shorter (Nat.lt_irrefl _)
      | cons c after => rfl
    rw [List.append_assoc, collect_item (same _ fun _ => head), again other False.elim]
    rfl

end Step

/-! ## Strings -/

theorem closed_word {α : Type} (meaning : α) (letters : List Char) : Closed (word meaning letters) := by
  induction letters with
  | nil => exact .done meaning
  | cons letter letters ih =>
    refine .of_cons rfl fun c => ?_
    simp only [word]
    split
    · exact ih
    · exact .failed

/-- Four digits spell their number alone. -/
theorem exists_hex {text rest : List Char} {n : Nat} (number : hexNumber? text = some (n, rest)) :
    ∃ hex, text = hex ++ rest ∧ hexNumber? hex = some (n, []) := by
  unfold hexNumber? at number
  split at number
  · next a b c d left =>
    simp only [bind, pure, Option.bind_eq_some_iff, Option.some.injEq, Prod.mk.injEq] at number
    obtain ⟨first, isFirst, second, isSecond, third, isThird, fourth, isFourth, rfl, rfl⟩ := number
    exact ⟨[a, b, c, d], rfl, by simp [hexNumber?, isFirst, isSecond, isThird, isFourth]⟩
  · contradiction

theorem closed_hexFour : Closed hexFour := by
  intro text n rest read
  unfold hexFour at read
  split at read
  · contradiction
  split at read
  · next number =>
    cases read
    obtain ⟨hex, whole, alone⟩ := exists_hex number
    exact ⟨hex, whole, fun other _ => hexFour_spelled alone other⟩
  · contradiction

theorem closed_lowHalf (high : Nat) : Closed (lowHalf high) := by
  intro text c rest read
  unfold lowHalf at read
  split at read
  · have half : Closed fun text => (hexFour text).andThen fun low rest =>
        if isLowSurrogate low then .ok (ofSurrogates high low, rest)
        else .error (faultAt .loneSurrogate rest) := by
      refine closed_hexFour.andThen (fun low => ?_) fun _ => False.elim
      split
      · exact .done _
      · exact .failed
    obtain ⟨taken, rfl, same⟩ := half read
    exact ⟨'\\' :: 'u' :: taken, rfl, same⟩
  all_goals contradiction

theorem closed_unicodeEscape : Closed unicodeEscape := by
  refine closed_hexFour.andThen (fun n => ?_) fun _ => False.elim
  split
  · exact .failed
  split
  · exact closed_lowHalf n
  · exact .done _

theorem closed_escapeSequence : Closed escapeSequence := by
  refine .of_cons rfl fun c => ?_
  simp only [escapeSequence]
  split
  · exact closed_unicodeEscape
  split
  · exact .done _
  · exact .failed

theorem closed_stringStep : Closed (stringStep.run ()) := by
  refine .of_cons rfl fun c => ?_
  simp only [stringStep]
  split
  · exact .done none
  split
  · have escaped : Closed fun text => (escapeSequence text).andThen fun meant rest =>
        .ok (some (meant, ()), rest) := closed_escapeSequence.map fun _ => id
    refine cast (congrArg Closed (funext fun text => ?_)) escaped
    cases escapeSequence text <;> rfl
  split
  · exact .failed
  · exact .done _

theorem closed_stringBody : Closed stringBody.run :=
  (Step.closed (fun _ => closed_stringStep.mono fun _ => False.elim) ()).map fun _ => id

/-! ## Numerals -/

/-- A reading that may peek may decide on the first character without taking it. -/
theorem Peeking.of_head {α : Type} {read : List Char → Outcome α}
    (atEnd : ∃ body, Peeking body ∧ read [] = body [])
    (each : ∀ c, ∃ body, Peeking body ∧ ∀ text, read (c :: text) = body (c :: text)) :
    Peeking read := by
  have decided (text : List Char) :
      ∃ body, Peeking body ∧ ∀ other, other.head? = text.head? → read other = body other := by
    cases text with
    | nil =>
      obtain ⟨body, peeking, same⟩ := atEnd
      exact ⟨body, peeking, fun other head => by rwa [List.head?_eq_none_iff.mp head]⟩
    | cons c text =>
      obtain ⟨body, peeking, same⟩ := each c
      refine ⟨body, peeking, fun other head => ?_⟩
      obtain ⟨left, rfl⟩ := List.head?_eq_some_iff.mp head
      exact same left
  intro text a rest done
  obtain ⟨body, peeking, same⟩ := decided text
  rw [same text rfl] at done
  obtain ⟨taken, rfl, again⟩ := peeking done
  refine ⟨taken, rfl, fun other ends => ?_⟩
  have head : (taken ++ other).head? = (taken ++ rest).head? := by
    rw [List.head?_append, List.head?_append, ends trivial]
  rw [same _ head]
  exact again other ends

theorem Peeking.of_tail {α : Type} {read : List Char → Outcome α} (peeking : Peeking read)
    (atEnd : (read []).toOption = none) : Peeking fun text => read text.tail :=
  .of_cons atEnd fun _ => peeking

theorem peeking_digitRun : Peeking fun text => .ok (Text.digitRun text) := by
  intro text digits rest done
  have run : Text.digitRun text = (digits, rest) := Except.ok.inj done
  have whole := Text.digitRun_append text
  have all {c : Char} (member : c ∈ (Text.digitRun text).1) := Text.digitRun_isDigit member
  have stop {c : Char} (next : (Text.digitRun text).2.head? = some c) := Text.digitRun_head? next
  rw [run] at whole all stop
  refine ⟨digits, whole.symm, fun other ends => ?_⟩
  have ended : other.head?.any Char.isDigit = false := by
    rw [ends trivial]
    cases next : rest.head? with
    | none => rfl
    | some c => exact stop next
  exact congrArg Except.ok (Text.digitRun_of_isDigit (fun _ => all) ended)

theorem exists_exponentDigits (begun : Nat) (text : List Char) :
    ∃ taken, text = taken ++ (exponentDigits begun text).2 ∧ ∀ other,
      ((exponentDigits begun text).1.isSome = true → other.head? = (exponentDigits begun text).2.head?) →
        exponentDigits begun (taken ++ other) = ((exponentDigits begun text).1, other) := by
  fun_induction exponentDigits begun text with
  | case1 begun =>
    refine ⟨[], rfl, fun other ends => ?_⟩
    rw [List.head?_eq_none_iff.mp (ends rfl)]
    rfl
  | case2 begun c text digit next small ih =>
    obtain ⟨taken, whole, same⟩ := ih
    refine ⟨c :: taken, congrArg (c :: ·) whole, fun other ends => ?_⟩
    rw [List.cons_append, exponentDigits, if_pos digit]
    exact (if_pos small).trans (same other ends)
  | case3 begun c text digit next large =>
    refine ⟨[c], rfl, fun other _ => ?_⟩
    rw [List.singleton_append, exponentDigits, if_pos digit]
    exact if_neg large
  | case4 begun c text other =>
    refine ⟨[], rfl, fun left ends => ?_⟩
    cases left with
    | nil => cases ends rfl
    | cons d left =>
      obtain rfl : d = c := by simpa using ends rfl
      rw [List.nil_append, exponentDigits, if_neg other]

/-- The digits of an exponent end at another character, or right behind the digit that makes it too large. -/
theorem confined_exponentDigits (begun : Nat) :
    Confined (fun size? => size?.isSome = true) fun text => .ok (exponentDigits begun text) := by
  intro text size? rest done
  have scanned : exponentDigits begun text = (size?, rest) := Except.ok.inj done
  obtain ⟨taken, whole, same⟩ := exists_exponentDigits begun text
  rw [scanned] at whole same
  exact ⟨taken, whole, fun other ends => congrArg Except.ok (same other ends)⟩

theorem confined_finishFloat {negative : Bool} {significand : Nat} {exponent : Int}
    {peeks : Numeral → Prop} :
    Confined peeks (finishFloat negative significand exponent) := by
  intro text n rest read
  obtain ⟨rfl, always⟩ := finishFloat_eq_ok read
  exact ⟨[], rfl, fun other _ => always other⟩

section Numerals

variable {negative down : Bool} {significand dropped : Nat} {places : Int}

theorem peeking_exponentPart : Peeking (exponentPart negative significand places down) := by
  have digits : Peeking fun text => (Outcome.andThen (.ok (exponentDigits 0 text))) fun
      | some size, left =>
        finishFloat negative significand (if down then places - size else places + size) left
      | none, left =>
        if significand ≠ 0 ∧ !down then .error (faultAt .numberOutOfRange left)
        else (Outcome.andThen (.ok (Text.digitRun left))) fun _ rest =>
          .ok (.float (Binary64.zero negative), rest) := by
    refine (confined_exponentDigits 0).andThen (fun size? => ?_) fun _ _ => .inl trivial
    cases size? with
    | some size => exact confined_finishFloat
    | none =>
      dsimp only
      split
      · exact .failed
      · exact peeking_digitRun.map fun _ => id
  refine .of_head ⟨fun _ => .error _, .failed, rfl⟩ fun c => ?_
  by_cases digit : c.isDigit = true
  · refine ⟨_, digits, fun text => ?_⟩
    simp only [exponentPart, digit]
    rcases exponentDigits 0 (c :: text) with ⟨_ | size, left⟩ <;> rfl
  · refine ⟨fun text => .error (faultPast .invalidNumber text), .failed, fun text => ?_⟩
    simp only [exponentPart, digit]
    rfl

/-- What stands behind the mark of an exponent. -/
theorem peeking_afterMark : Peeking fun text : List Char => match text with
    | '+' :: rest => exponentPart negative significand places false rest
    | '-' :: rest => exponentPart negative significand places true rest
    | rest => exponentPart negative significand places false rest := by
  refine .of_head ⟨_, peeking_exponentPart, rfl⟩ fun c => ?_
  by_cases plus : c = '+'
  · subst plus
    exact ⟨_, peeking_exponentPart.of_tail rfl, fun _ => rfl⟩
  by_cases minus : c = '-'
  · subst minus
    exact ⟨_, peeking_exponentPart.of_tail rfl, fun _ => rfl⟩
  refine ⟨exponentPart negative significand places false, peeking_exponentPart, fun text => ?_⟩
  split
  · next same => exact absurd (List.cons.inj same).1 plus
  · next same => exact absurd (List.cons.inj same).1 minus
  · rfl

theorem peeking_afterDigits : Peeking (afterDigits negative significand places) := by
  refine .of_head ⟨_, confined_finishFloat, rfl⟩ fun mark => ?_
  by_cases isMark : mark = 'e' ∨ mark = 'E'
  · exact ⟨_, peeking_afterMark.of_tail rfl, fun text => if_pos isMark⟩
  · exact ⟨_, confined_finishFloat, fun text => if_neg isMark⟩

theorem peeking_fractionPart : Peeking (fractionPart negative significand dropped) := by
  have behindPoint : Peeking fun text => (Outcome.andThen (.ok (Text.digitRun text))) fun digits rest =>
      if digits.isEmpty then
        .error (faultPast (if rest.isEmpty then .endInValue else .invalidNumber) rest)
      else
        afterDigits negative (keepDigits significand digits).1
          (dropped - (digits.length - (keepDigits significand digits).2.length : Nat)) rest := by
    refine peeking_digitRun.andThen (fun digits => ?_) fun _ _ => .inl trivial
    split
    · exact .failed
    · exact peeking_afterDigits
  exact behindPoint

theorem peeking_behindDigits : Peeking (behindDigits negative significand dropped) := by
  refine .of_head ?_ fun c => ?_
  · by_cases whole : dropped = 0
    · exact ⟨_, .done (wholeNumeral negative significand), if_pos whole⟩
    · exact ⟨_, peeking_afterDigits, if_neg whole⟩
  by_cases point : c = '.'
  · exact ⟨_, peeking_fractionPart.of_tail rfl, fun text => if_pos point⟩
  by_cases whole : dropped = 0 ∧ c ≠ 'e' ∧ c ≠ 'E'
  · exact ⟨_, .done (wholeNumeral negative significand), fun text => (if_neg point).trans (if_pos whole)⟩
  · exact ⟨_, peeking_afterDigits, fun text => (if_neg point).trans (if_neg whole)⟩

theorem peeking_numeralBody : Peeking (numeralBody negative) := by
  refine .of_cons rfl fun c => ?_
  by_cases digit : c.isDigit = true
  · have run (text : List Char) :
        Text.digitRun (c :: text) = (c :: (Text.digitRun text).1, (Text.digitRun text).2) := by
      rw [Text.digitRun, List.takeWhile_cons_of_pos digit, List.dropWhile_cons_of_pos digit]
      rfl
    have behindFirst : Peeking fun text => (Outcome.andThen (.ok (Text.digitRun text))) fun digits rest =>
        behindDigits negative (keepDigits 0 (c :: digits)).1 (keepDigits 0 (c :: digits)).2.length rest :=
      peeking_digitRun.andThen (fun digits => peeking_behindDigits) fun _ _ => .inl trivial
    refine Peeking.of_head ⟨_, behindFirst, ?_⟩ fun d => ?_
    · simp [numeralBody, digit, run, Outcome.andThen]
    by_cases zero : c = '0' ∧ d.isDigit = true
    · refine ⟨fun text => .error (faultPast .invalidNumber text), .failed, fun text => ?_⟩
      simp [numeralBody, zero]
    · refine ⟨_, behindFirst, fun text => ?_⟩
      simp [numeralBody, digit, run, zero, Outcome.andThen]
  · refine .failing fun text n rest => ?_
    simp [numeralBody, digit]

end Numerals

/-! ## Values -/

theorem closed_colon : Closed colon := by
  refine .of_skipSpace (fun text => ?_) rfl fun c visible => ?_
  · simp only [colon, skipSpace_skipSpace]
  simp only [colon, skipSpace_cons visible]
  split
  · exact .done ()
  · exact .failed

section Items

variable {α : Type} {item : Reader α} (peeking : Peeking item.run)

include peeking

theorem confined_nextElement (first : Bool) :
    Confined (fun next => next.isSome = true) (nextElement item first) := by
  have entry (c : Char) : Confined (fun next : Option (α × Bool) => next.isSome = true) fun text =>
      (item.run (c :: text)).andThen fun a left => .ok (some (a, false), left) :=
    (peeking.behind item.shorter c).map fun _ _ => rfl
  refine .of_skipSpace (fun text => ?_) rfl fun c visible => ?_
  · simp only [nextElement, skipSpace_skipSpace]
  simp only [nextElement, skipSpace_cons visible]
  split
  · exact .done none
  split
  · exact entry c
  split
  · refine .of_skipSpace (fun text => ?_) rfl fun d visible => ?_
    · simp only [skipSpace_skipSpace]
    simp only [skipSpace_cons visible]
    split
    · exact .failed
    · exact entry d
  · exact .failed

/-- Behind its bracket an array is closed. -/
theorem closed_elements : Closed (elements item).run := Step.closed (confined_nextElement peeking) true

theorem peeking_behindColon : Peeking (behindColon item) :=
  closed_colon.andThen (fun _ => peeking) fun _ => False.elim

end Items

theorem closed_nextName (first : Bool) : Closed (nextName first) := by
  have name : Closed fun text => (stringBody.run text).andThen fun name left => .ok (some name, left) :=
    closed_stringBody.map fun _ => id
  refine .of_skipSpace (fun text => ?_) rfl fun c visible => ?_
  · simp only [nextName, skipSpace_skipSpace]
  simp only [nextName, skipSpace_cons visible]
  split
  · exact .done none
  split
  · split
    · exact name
    · exact .failed
  split
  · refine .of_skipSpace (fun text => ?_) rfl fun d visible => ?_
    · simp only [skipSpace_skipSpace]
    simp only [skipSpace_cons visible]
    split
    · exact name
    · exact .failed
  · exact .failed

theorem confined_memberStep {α : Type} {item : Reader α} (peeking : Peeking item.run) (first : Bool) :
    Confined (fun next => next.isSome = true) ((memberStep item).run first) := by
  refine (closed_nextName first).andThen (fun name? => ?_) fun _ => False.elim
  cases name? with
  | none => exact .done none
  | some name => exact (peeking_behindColon peeking).map fun _ _ => rfl

theorem closed_members {α : Type} {item : Reader α} (peeking : Peeking item.run) :
    Closed (members item).run :=
  Step.closed (confined_memberStep peeking) true

theorem peeking_valueFrom {nested? : Option (Reader Value)}
    (nested : ∀ item, nested? = some item → Peeking item.run) (c : Char) :
    Peeking (valueFrom nested? c) := by
  unfold valueFrom
  split
  · exact (closed_word _ _).peeking
  split
  · exact (closed_word _ _).peeking
  split
  · exact (closed_word _ _).peeking
  split
  · exact peeking_numeralBody.map fun _ => id
  split
  · exact closed_stringBody.map fun _ => False.elim
  split
  · cases nested? with
    | none => exact .failed
    | some item => exact (closed_elements (nested item rfl)).map fun _ => False.elim
  split
  · cases nested? with
    | none => exact .failed
    | some item => exact (closed_members (nested item rfl)).map fun _ => False.elim
  split
  · exact (peeking_numeralBody.behind numeralBody_length_lt c).map fun _ => id
  · exact .failed

theorem peeking_value (depth : Nat) : Peeking (value depth).run := by
  induction depth with
  | zero => exact .start (peeking_valueFrom fun _ same => by cases same)
  | succ depth ih =>
    refine .start (peeking_valueFrom fun item same => ?_)
    cases same
    exact ih

/-! ## Values of one kind -/

theorem closed_string (expected : String) : Closed (string expected).run := by
  refine .start fun c => ?_
  split
  · exact closed_stringBody
  · exact .failed

theorem closed_bool (expected : String) : Closed (bool expected).run := by
  refine .start fun c => ?_
  split
  · exact closed_word _ _
  split
  · exact closed_word _ _
  · exact .failed

theorem closed_list {α : Type} (expected : String) {item : Nat → Reader α}
    (peeking : ∀ depth, Peeking (item depth).run) (depth : Nat) :
    Closed (list expected item depth).run := by
  refine .start fun c => ?_
  split
  · cases depth with
    | zero => exact .failed
    | succ depth => exact closed_elements (peeking depth)
  · exact .failed

theorem closed_dict (expected : String) (depth : Nat) : Closed (dict expected depth).run := by
  refine .start fun c => ?_
  split
  · cases depth with
    | zero => exact .failed
    | succ depth => exact (closed_members (peeking_value depth)).map fun _ => id
  · exact .failed

theorem closed_optional {α : Type} {item : Reader α} (closed : Closed item.run) :
    Closed (optional item).run := by
  refine .of_skipSpace (fun text => ?_) ?_ fun c visible => ?_
  · simp only [optional, skipSpace_skipSpace]
  · cases read : (optional item).run [] with
    | error fault => rfl
    | ok given =>
      obtain ⟨b, left, found, -⟩ := Outcome.andThen_eq_ok.mp read
      exact absurd (item.shorter found) (Nat.not_lt_zero _)
  · by_cases null : c = 'n'
    · subst null
      exact closed_word none _
    · have given : Closed fun text => (item.run (c :: text)).andThen fun a left => .ok (some a, left) :=
        (closed.behind item.shorter c).map fun _ => id
      refine cast (congrArg Closed (funext fun text => ?_)) given
      simp only [optional, skipSpace_cons visible]
      split
      · next same => exact absurd (List.cons.inj same).1 null
      · rfl

namespace Schema

variable {schema : Schema} (peeking : ∀ field depth, Peeking (schema.read field depth).run)

include peeking

theorem confined_entryStep (depth : Nat) (seen : List schema.Field) :
    Confined (fun next => next.isSome = true) ((schema.entryStep depth).run seen) := by
  refine (closed_nextName seen.isEmpty).andThen (fun name? => ?_) fun _ => False.elim
  cases name? with
  | none => exact .done none
  | some name =>
    dsimp only
    split
    · exact .failed
    · next field _ =>
      refine (peeking_behindColon (peeking field depth)).andThen (fun content => ?_) ?_
      · split
        · exact .failed
        · exact .done _
      · intro content text next rest taken _
        split at taken
        · contradiction
        · cases taken
          exact .inl rfl

/-- A record is closed, whatever its fields are. -/
theorem closed_record {α : Type} (expected : String) (build : List schema.Entry → Except Cause α)
    (depth : Nat) :
    Closed (schema.record expected build depth).run := by
  refine .judge (.start fun c => ?_)
  split
  · cases depth with
    | zero => exact .failed
    | succ depth => exact Step.closed (confined_entryStep peeking depth) []
  · exact .failed

end Schema

end JobQueue.Json
