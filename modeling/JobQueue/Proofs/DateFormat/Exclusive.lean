import Mathlib
import JobQueue.Codec
import JobQueue.Proofs.DateFormat

/-! # No text is a date in two formats

The two plain forms differ in what separates the numbers of a date, and the form with a `T` has it where the
plain ones go on with the time. None of the three reads a letter besides the `T`, while the form that begins
with the weekday names the month. So of several formats at most one accepts a text, and the order in which
formats are tried does not matter.
-/

namespace JobQueue

namespace Text

/-- A word is made of characters of the text. -/
theorem subset_of_mem_words {text word : List Char} (member : word ∈ words text) : word ⊆ text := by
  have pieces : ∀ piece ∈ text.splitOnP isBlank, piece ⊆ text := by
    clear member
    induction text with
    | nil => simp
    | cons c text ih =>
      rw [List.splitOnP_cons_eq_if_modifyHead]
      split
      · intro piece member
        rcases List.mem_cons.mp member with rfl | member
        · exact List.nil_subset _
        · exact List.subset_cons_of_subset _ (ih piece member)
      · cases split : text.splitOnP isBlank with
        | nil => simp at split
        | cons head rest =>
          rw [split] at ih
          intro piece member
          rcases List.mem_cons.mp member with rfl | member
          · exact List.cons_subset_cons _ (ih head List.mem_cons_self)
          · exact List.subset_cons_of_subset _ (ih piece (List.mem_cons_of_mem _ member))
  exact pieces word (List.mem_filter.mp member).1

theorem ne_nil_of_mem_words {text word : List Char} (member : word ∈ words text) : word ≠ [] := by
  have some := (List.mem_filter.mp member).2
  rintro rfl
  contradiction

theorem isAlpha_iff (c : Char) :
    c.isAlpha = true ↔ 65 ≤ c.toNat ∧ c.toNat ≤ 90 ∨ 97 ≤ c.toNat ∧ c.toNat ≤ 122 := by
  simp only [Char.isAlpha, Char.isUpper, Char.isLower, Bool.or_eq_true, Bool.and_eq_true, decide_eq_true_eq,
    ge_iff_le, UInt32.le_iff_toNat_le]
  rfl

theorem not_isAlpha_of_isBlank {c : Char} (blank : isBlank c = true) : ¬ c.isAlpha = true := by
  rw [isAlpha_iff]
  simp only [isBlank, Bool.or_eq_true, Bool.and_eq_true, decide_eq_true_eq, beq_iff_eq] at blank
  omega

theorem not_isAlpha_of_isDigit {c : Char} (digit : c.isDigit = true) : ¬ c.isAlpha = true := by
  rw [Char.isDigit_iff_toNat] at digit
  change 48 ≤ c.toNat ∧ c.toNat ≤ 57 at digit
  rw [isAlpha_iff]
  omega

end Text

namespace DateFormat

/-! ## Dates in figures -/

/-- A text without letters, but for the `T` in front of a time. -/
def InFigures (text : List Char) : Prop := ∀ c ∈ text, c.isAlpha = true → c = 'T'

theorem inFigures_nil : InFigures [] := List.forall_mem_nil _

theorem InFigures.cons {c : Char} {text : List Char} (figure : c.isAlpha = true → c = 'T')
    (behind : InFigures text) : InFigures (c :: text) :=
  List.forall_mem_cons.mpr ⟨figure, behind⟩

/-- Characters without letters may stand in front. -/
theorem InFigures.append {first second : List Char} (before : ∀ c ∈ first, ¬ c.isAlpha = true)
    (behind : InFigures second) : InFigures (first ++ second) :=
  List.forall_mem_append.mpr ⟨fun c member letter => absurd letter (before c member), behind⟩

theorem InFigures.of_dropWhile {passed : Char → Bool} (figures : ∀ c, passed c = true → ¬ c.isAlpha = true)
    {text : List Char} (behind : InFigures (text.dropWhile passed)) : InFigures text := by
  rw [← List.takeWhile_append_dropWhile (p := passed) (l := text)]
  exact .append (fun c member => figures c (List.all_eq_true.mp List.all_takeWhile c member)) behind

theorem InFigures.of_skipBlanks {text : List Char} (behind : InFigures (Text.skipBlanks text)) :
    InFigures text := .of_dropWhile (fun _ => Text.not_isAlpha_of_isBlank) behind

theorem InFigures.of_digitRun {text : List Char} (behind : InFigures (Text.digitRun text).2) :
    InFigures text := .of_dropWhile (fun _ => Text.not_isAlpha_of_isDigit) behind

/-- A reader that passes over no letter but a `T`. -/
def PassesFigures {α : Type} (reader : List Char → Option (α × List Char)) : Prop :=
  ∀ ⦃text a rest⦄, reader text = some (a, rest) → InFigures rest → InFigures text

theorem number_passes (width : Nat) : PassesFigures (number width) := by
  intro text n rest read behind
  apply InFigures.of_skipBlanks
  unfold number at read
  generalize Text.skipBlanks text = text at read ⊢
  dsimp only at read
  split at read
  · contradiction
  · cases read
    have front : (text.take width).takeWhile Char.isDigit <+: text :=
      (List.takeWhile_prefix _).trans (List.take_prefix _ _)
    rw [← List.prefix_iff_eq_append.mp front]
    refine .append (fun c member => Text.not_isAlpha_of_isDigit ?_) behind
    exact List.all_eq_true.mp List.all_takeWhile c member

theorem year_passes : PassesFigures year := by
  intro text y rest read behind
  apply InFigures.of_skipBlanks
  unfold year at read
  split at read
  · next digits skipped =>
    rw [skipped]
    dsimp only at read
    split at read
    · contradiction
    · cases read
      exact .cons (by decide) behind.of_digitRun
  · next digits skipped =>
    rw [skipped]
    dsimp only at read
    split at read
    · contradiction
    · cases read
      exact .cons (by decide) behind.of_digitRun
  · obtain ⟨⟨n, left⟩, number, equal⟩ := Option.map_eq_some_iff.mp read
    cases equal
    exact number_passes 4 number behind

theorem eq_of_mark {c : Char} {text rest : List Char} (read : mark c text = some rest) : text = c :: rest := by
  unfold mark at read
  split at read
  · split at read
    · next same =>
      cases read
      rw [same]
    · contradiction
  · contradiction

theorem InFigures.of_mark {c : Char} (figure : c.isAlpha = true → c = 'T') {text rest : List Char}
    (read : mark c text = some rest) (behind : InFigures rest) : InFigures text := by
  rw [eq_of_mark read]
  exact behind.cons figure

theorem fraction_passes : PassesFigures fraction := by
  intro text n rest read behind
  unfold fraction at read
  split at read
  · dsimp only at read
    split at read
    · contradiction
    · cases read
      exact .cons (by decide) behind.of_digitRun
  · cases read
    exact behind

theorem twoDigits_passes (limit : Nat) : PassesFigures (twoDigits limit) := by
  intro text n rest read behind
  unfold twoDigits at read
  split at read
  · split at read
    · next digits =>
      cases read
      simp only [Bool.and_eq_true] at digits
      exact .cons (fun letter => absurd letter (Text.not_isAlpha_of_isDigit digits.1.1))
        (.cons (fun letter => absurd letter (Text.not_isAlpha_of_isDigit digits.1.2)) behind)
    · contradiction
  · contradiction

theorem offset_passes : PassesFigures offset := by
  intro text east rest read behind
  apply InFigures.of_skipBlanks
  unfold offset at read
  -- whatever the sign is, digits follow, and between them colons and blanks
  split at read
  case h_4 => contradiction
  all_goals
    next skipped =>
    simp only [Option.bind_eq_bind, Option.bind_some, Option.bind_eq_some_iff] at read
    obtain ⟨⟨hours, between⟩, first, ⟨minutes, left⟩, second, size⟩ := read
    split at size
    · contradiction
    · cases size
      have between : InFigures between := by
        refine .of_dropWhile (fun c passed => ?_) (twoDigits_passes 6 second behind)
        rw [Bool.or_eq_true, decide_eq_true_eq] at passed
        rcases passed with rfl | blank
        · decide
        · exact Text.not_isAlpha_of_isBlank blank
      rw [skipped]
      exact (twoDigits_passes 10 first between).cons (by decide)

theorem timeOfDay_passes : PassesFigures timeOfDay := by
  intro text time rest read behind
  simp only [timeOfDay, Option.bind_eq_bind, Option.bind_eq_some_iff] at read
  obtain ⟨⟨hour, _⟩, hours, _, colon, ⟨minute, _⟩, minutes, _, other, ⟨second, _⟩, seconds, done⟩ := read
  cases done
  have minutes := number_passes 2 minutes (.of_mark (by decide) other (number_passes 2 seconds behind))
  exact number_passes 2 hours (.of_mark (by decide) colon minutes)

theorem yearMonthDay_passes {separator : Char} (figure : separator.isAlpha = true → separator = 'T') :
    PassesFigures (yearMonthDay separator) := by
  intro text date rest read behind
  simp only [yearMonthDay, Option.bind_eq_bind, Option.bind_eq_some_iff] at read
  obtain ⟨⟨y, _⟩, years, _, one, ⟨month, _⟩, months, _, other, ⟨day, _⟩, days, done⟩ := read
  cases done
  have months := number_passes 2 months (.of_mark figure other (number_passes 2 days behind))
  exact year_passes years (.of_mark figure one months)

variable {text : List Char} {instant other : Instant}

theorem readIso_inFigures (read : readIso text = some instant) : InFigures text := by
  simp only [readIso, Option.bind_eq_bind, Option.bind_eq_some_iff] at read
  obtain ⟨⟨date, _⟩, dates, _, letter, ⟨⟨hour, minute, second⟩, _⟩, times, ⟨nanos, _⟩, fractions,
    ⟨east, rest⟩, offsets, whole⟩ := read
  split at whole
  · next finished =>
    obtain rfl := List.isEmpty_iff.mp finished
    have times := timeOfDay_passes times (fraction_passes fractions (offset_passes offsets inFigures_nil))
    exact yearMonthDay_passes (by decide) dates (.of_mark (fun _ => rfl) letter times)
  · contradiction

theorem readPlain_inFigures {separator : Char} (figure : separator.isAlpha = true → separator = 'T')
    (read : readPlain separator text = some instant) : InFigures text := by
  simp only [readPlain, Option.bind_eq_bind, Option.bind_eq_some_iff] at read
  obtain ⟨⟨date, _⟩, dates, ⟨⟨hour, minute, second⟩, _⟩, times, ⟨east, rest⟩, offsets, whole⟩ := read
  split at whole
  · next finished =>
    obtain rfl := List.isEmpty_iff.mp finished
    exact yearMonthDay_passes figure dates (timeOfDay_passes times (offset_passes offsets inFigures_nil))
  · contradiction

/-- What begins with the name of a month begins with a letter, which is no `T`. -/
theorem letter_of_monthName {c : Char} {rest : List Char} (named : (monthName (c :: rest)).isSome) :
    c.isAlpha = true ∧ c ≠ 'T' := by
  have initials : ∀ names ∈ monthNames, (names.1.toList.head?.any fun c => c.isAlpha && c != 't') = true := by
    decide
  obtain ⟨found, named⟩ := Option.isSome_iff_exists.mp named
  obtain ⟨⟨⟨short, long⟩, index⟩, member, named⟩ := List.exists_of_findSome?_eq_some named
  have initial := initials (short, long) (List.fst_mem_of_mem_zipIdx member)
  obtain ⟨left, dropped, -⟩ := Option.map_eq_some_iff.mp named
  simp only [dropWord] at dropped
  split at dropped
  · next same =>
    rw [← same] at initial
    cases length : short.toList.length with
    | zero =>
      rw [length] at initial
      contradiction
    | succ n =>
      rw [length, List.take_succ_cons, List.map_cons, List.head?_cons, Option.any_some, Bool.and_eq_true,
        bne_iff_ne, Char.isAlpha_toLower_eq_isAlpha] at initial
      refine ⟨initial.1, ?_⟩
      rintro rfl
      exact initial.2 rfl
  · contradiction

/-- A date that begins with the weekday names the month. -/
theorem not_inFigures_of_readWeekday (read : readWeekday text = some instant) : ¬ InFigures text := by
  intro figures
  unfold readWeekday at read
  split at read
  · next day month _ _ _ _ words =>
    simp only [Option.bind_eq_bind, Option.bind_eq_some_iff] at read
    obtain ⟨east, -, clock, clocks, -⟩ := read
    simp only [namedMonthTime, Option.bind_eq_bind, Option.bind_eq_some_iff] at clocks
    obtain ⟨⟨number, _⟩, named, -⟩ := clocks
    have member : month ∈ Text.words text := by
      rw [words]
      exact List.mem_cons_of_mem _ List.mem_cons_self
    obtain ⟨c, rest, rfl⟩ := List.exists_cons_of_ne_nil (Text.ne_nil_of_mem_words member)
    obtain ⟨letter, other⟩ := letter_of_monthName (Option.isSome_iff_exists.mpr ⟨_, named⟩)
    exact other (figures c (Text.subset_of_mem_words member List.mem_cons_self) letter)
  · contradiction

/-! ## Dates that separate their numbers -/

theorem year_of_yearMonthDay {separator : Char} {date : Date × List Char}
    (read : yearMonthDay separator text = some date) : ∃ y rest, year text = some (y, separator :: rest) := by
  simp only [yearMonthDay, Option.bind_eq_bind, Option.bind_eq_some_iff] at read
  obtain ⟨⟨y, rest⟩, years, left, one, -⟩ := read
  obtain rfl : rest = separator :: left := eq_of_mark one
  exact ⟨y, left, years⟩

/-- The year of a date tells where it ends, so what separates the numbers is what stands there. -/
theorem separator_unique {separator sign : Char} {date day : Date × List Char}
    (one : yearMonthDay separator text = some date) (two : yearMonthDay sign text = some day) :
    separator = sign := by
  obtain ⟨_, _, years⟩ := year_of_yearMonthDay one
  obtain ⟨_, _, again⟩ := year_of_yearMonthDay two
  cases years.symm.trans again
  rfl

theorem date_of_readPlain {separator : Char} (read : readPlain separator text = some instant) :
    ∃ date rest time, yearMonthDay separator text = some (date, rest) ∧ timeOfDay rest = some time := by
  simp only [readPlain, Option.bind_eq_bind, Option.bind_eq_some_iff] at read
  obtain ⟨⟨date, rest⟩, dates, time, times, -⟩ := read
  exact ⟨date, rest, time, dates, times⟩

theorem date_of_readIso (read : readIso text = some instant) :
    ∃ date rest, yearMonthDay '-' text = some (date, 'T' :: rest) := by
  simp only [readIso, Option.bind_eq_bind, Option.bind_eq_some_iff] at read
  obtain ⟨⟨date, rest⟩, dates, left, letter, -⟩ := read
  obtain rfl : rest = 'T' :: left := eq_of_mark letter
  exact ⟨date, left, dates⟩

/-- Where a date with a `T` goes on with it, a plain date goes on with the time. -/
theorem readIso_excludes_readPlain (one : readIso text = some instant) (separator : Char) :
    readPlain separator text ≠ some other := by
  intro two
  obtain ⟨date, rest, dates⟩ := date_of_readIso one
  obtain ⟨_, _, time, again, times⟩ := date_of_readPlain two
  obtain rfl := separator_unique dates again
  cases dates.symm.trans again
  contradiction

theorem readPlain_excludes_readPlain {separator sign : Char} (differ : separator ≠ sign)
    (one : readPlain separator text = some instant) : readPlain sign text ≠ some other := by
  intro two
  obtain ⟨_, _, _, dates, -⟩ := date_of_readPlain one
  obtain ⟨_, _, _, again, -⟩ := date_of_readPlain two
  exact differ (separator_unique dates again)

/-! ## Formats in any order -/

/-- The format in which a text is a date. -/
theorem format_unique {format other : DateFormat} {text : String} {first second : Instant}
    (one : format.read text = some first) (two : other.read text = some second) : format = other := by
  unfold read at one two
  generalize Text.trim text.toList = text at one two
  have dash : '-'.isAlpha = true → '-' = 'T' := by decide
  have slash : '/'.isAlpha = true → '/' = 'T' := by decide
  cases format with
  | iso => cases other with
    | iso => rfl
    | weekday => exact absurd (readIso_inFigures one) (not_inFigures_of_readWeekday two)
    | dashed | slashed => exact absurd two (readIso_excludes_readPlain one _)
  | weekday => cases other with
    | iso => exact absurd (readIso_inFigures two) (not_inFigures_of_readWeekday one)
    | weekday => rfl
    | dashed => exact absurd (readPlain_inFigures dash two) (not_inFigures_of_readWeekday one)
    | slashed => exact absurd (readPlain_inFigures slash two) (not_inFigures_of_readWeekday one)
  | dashed => cases other with
    | iso => exact absurd one (readIso_excludes_readPlain two _)
    | weekday => exact absurd (readPlain_inFigures dash one) (not_inFigures_of_readWeekday two)
    | dashed => rfl
    | slashed => exact absurd two (readPlain_excludes_readPlain (by decide) one)
  | slashed => cases other with
    | iso => exact absurd one (readIso_excludes_readPlain two _)
    | weekday => exact absurd (readPlain_inFigures slash one) (not_inFigures_of_readWeekday two)
    | dashed => exact absurd two (readPlain_excludes_readPlain (by decide) one)
    | slashed => rfl

/-- What one entry of a list gives is found, if no other entry gives anything. -/
theorem findSome?_of_unique {α β : Type} {find : α → Option β} {entries : List α} {entry : α} {found : β}
    (member : entry ∈ entries) (gives : find entry = some found)
    (unique : ∀ other ∈ entries, (find other).isSome → other = entry) : entries.findSome? find = some found := by
  cases first : entries.findSome? find with
  | none =>
    have misses := List.findSome?_eq_none_iff.mp first entry member
    exact nomatch misses.symm.trans gives
  | some other =>
    obtain ⟨one, listed, instead⟩ := List.exists_of_findSome?_eq_some first
    obtain rfl := unique one listed (Option.isSome_iff_exists.mpr ⟨_, instead⟩)
    exact instead.symm.trans gives

/-- Of several formats, the one that accepts a text decides, wherever it stands. -/
theorem readFirst_eq_some_iff {formats : List DateFormat} {text : String} {instant : Instant} :
    readFirst formats text = some instant ↔ ∃ format ∈ formats, format.read text = some instant := by
  constructor
  · exact List.exists_of_findSome?_eq_some
  · rintro ⟨format, member, read⟩
    refine findSome?_of_unique member read fun other _ accepts => ?_
    obtain ⟨instead, again⟩ := Option.isSome_iff_exists.mp accepts
    exact format_unique again read

/-- Formats that are the same but for their order and for repetitions read the same. -/
theorem readFirst_congr {formats others : List DateFormat} (same : ∀ format, format ∈ formats ↔ format ∈ others)
    (text : String) : readFirst formats text = readFirst others text := by
  ext instant
  rw [readFirst_eq_some_iff, readFirst_eq_some_iff]
  simp only [same]

end DateFormat

namespace Codec

/-- At most one format accepts a text. So it does not matter in which order and how often a codec's formats are
listed, and as soon as its format is among them, the canonical text of an instant is read as what it denotes. -/
theorem readDate_in_any_order :
    (∀ (text : String) (format other : DateFormat), (format.read text).isSome → (other.read text).isSome →
      format = other) ∧
    (∀ codec other : Codec, (∀ format, format ∈ codec.formats ↔ format ∈ other.formats) → ∀ text,
      (codec.readDate text).toOption = (other.readDate text).toOption) ∧
    ∀ codec : Codec, .iso ∈ codec.formats → ∀ instant : Instant, instant.InUse → 0 ≤ instant.year →
      instant.year ≤ 9999 → codec.readDate (DateFormat.canonical instant) = .ok instant.readBack := by
  refine ⟨?_, ?_, ?_⟩
  · intro text format other one two
    obtain ⟨first, one⟩ := Option.isSome_iff_exists.mp one
    obtain ⟨second, two⟩ := Option.isSome_iff_exists.mp two
    exact DateFormat.format_unique one two
  · intro codec other same text
    rw [readDate, readDate, DateFormat.readFirst_congr same]
    cases DateFormat.readFirst other.formats text <;> rfl
  · intro codec accepted instant inUse from0 to9999
    rw [readDate, DateFormat.readFirst_readBack accepted inUse from0 to9999]

/-- A plain date for two codecs that list the same formats, and the canonical text of the last instant of the
year 2016, a leap second. -/
theorem readDate_in_any_order_leapSecond :
    let codec : Codec := { formats := [.slashed, .dashed, .iso] }
    let other : Codec := { formats := [.iso, .iso, .dashed, .slashed] }
    (codec.readDate "2013-03-07 21:26:05 -0500").toOption = some ⟨1362709565, 0⟩ ∧
      (other.readDate "2013-03-07 21:26:05 -0500").toOption = some ⟨1362709565, 0⟩ ∧
      codec.readDate (DateFormat.canonical ⟨1483228799, 1250000000⟩) = .ok ⟨1483228799, 1250000000⟩ := by
  intro codec other
  have read : (codec.readDate "2013-03-07 21:26:05 -0500").toOption = some ⟨1362709565, 0⟩ := by decide +kernel
  have same : ∀ format, format ∈ codec.formats ↔ format ∈ other.formats := by
    intro format
    cases format <;> decide
  obtain ⟨-, anyOrder, canonical⟩ := readDate_in_any_order
  refine ⟨read, (anyOrder codec other same _).symm.trans read, ?_⟩
  exact canonical codec (by decide) ⟨1483228799, 1250000000⟩ ⟨by decide, by decide⟩ (by decide) (by decide)

/-- Of a date in the middle of a minute that counts its fraction on past the second, the text is read as an
instant of the next second. -/
theorem readDate_canonical_overrun :
    let overrun : Instant := ⟨1362709565, 1500000000⟩
    overrun.InUse ∧ overrun.year = 2013 ∧
      readDate {} (DateFormat.canonical overrun) = .ok ⟨1362709566, 500000000⟩ ∧
      readDate {} (DateFormat.canonical overrun) ≠ .ok overrun.truncated := by
  intro overrun
  have inUse : overrun.InUse := ⟨by decide, by decide⟩
  have next : overrun.readBack = ⟨1362709566, 500000000⟩ := by decide
  have read : readDate {} (DateFormat.canonical overrun) = .ok ⟨1362709566, 500000000⟩ := by
    rw [readDate, DateFormat.readFirst_readBack (by decide) inUse (by decide) (by decide), next]
  refine ⟨inUse, by decide, read, ?_⟩
  rw [read]
  intro same
  exact absurd (Except.ok.inj same) (by decide)

end Codec

end JobQueue
