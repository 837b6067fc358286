import JobQueue.Proofs.DateFormat.Exclusive

/-! # Every spelling of a date denotes its instant

An instant is written as the date and the time that a clock some whole minutes east of UTC shows, with that
offset. What is written so in any of the four formats, with any blanks around it, is read as the instant, even
where the offset carries the clock into another day, month or year.
-/

namespace JobQueue

namespace Text

/-- A word: some characters, none of them blank. -/
def IsWord (text : List Char) : Prop := text ≠ [] ∧ ∀ c ∈ text, isBlank c = false

instance (text : List Char) : Decidable (IsWord text) := inferInstanceAs (Decidable (_ ∧ _))

theorem padded_isWord (width n : Nat) : IsWord (padded width n) := by
  refine ⟨?_, fun c member => DateFormat.not_isBlank_of_isDigit (padded_isDigit member)⟩
  obtain ⟨c, rest, equal, -⟩ := DateFormat.padded_cons width n
  rw [equal]
  exact List.cons_ne_nil _ _

theorem IsWord.append {first second : List Char} (one : IsWord first) (other : ∀ c ∈ second, isBlank c = false) :
    IsWord (first ++ second) :=
  ⟨List.append_ne_nil_of_left_ne_nil one.1 _, List.forall_mem_append.mpr ⟨one.2, other⟩⟩

theorem dropWhile_word {word : List Char} (isWord : IsWord word) (rest : List Char) :
    (word ++ rest).dropWhile isBlank = word ++ rest := by
  obtain ⟨c, tail, rfl⟩ := List.exists_cons_of_ne_nil isWord.1
  have visible := isWord.2 c List.mem_cons_self
  rw [List.cons_append, List.dropWhile_cons, visible]
  rfl

/-- Blanks around a text that begins and ends with a word are all that is taken off. -/
theorem trim_surrounded {before text after first last : List Char} (front : ∀ c ∈ before, isBlank c = true)
    (back : ∀ c ∈ after, isBlank c = true) (begins : first <+: text) (begun : IsWord first)
    (ends : last <:+ text) (ended : IsWord last) : trim (before ++ text ++ after) = text := by
  have skipped : skipBlanks (before ++ text ++ after) = text ++ after := by
    obtain ⟨more, rfl⟩ := begins
    simp only [skipBlanks, List.append_assoc]
    rw [List.dropWhile_append_of_pos front, dropWhile_word begun]
  obtain ⟨more, rfl⟩ := ends
  have backwards : IsWord last.reverse :=
    ⟨List.reverse_ne_nil_iff.mpr ended.1, fun c member => ended.2 c (List.mem_reverse.mp member)⟩
  have behind : ∀ c ∈ after.reverse, isBlank c = true := fun c member => back c (List.mem_reverse.mp member)
  rw [trim, skipped, List.reverse_append, List.dropWhile_append_of_pos behind, List.reverse_append,
    dropWhile_word backwards, ← List.reverse_append, List.reverse_reverse]

/-- A word alone is the one word of its text. -/
theorem words_word {word : List Char} (isWord : IsWord word) : words word = [word] := by
  rw [words, List.splitOnP_eq_singleton isWord.2, List.filter_cons, List.filter_nil,
    List.isEmpty_eq_false_iff.mpr isWord.1]
  rfl

/-- A word and a space stand in front of the words behind them. -/
theorem words_append {word : List Char} (isWord : IsWord word) (rest : List Char) :
    words (word ++ ' ' :: rest) = word :: words rest := by
  have blank : isBlank ' ' = true := by decide
  rw [words, List.splitOnP_append_cons_of_forall_mem isWord.2 _ blank, List.filter_cons,
    List.isEmpty_eq_false_iff.mpr isWord.1]
  rfl

end Text

namespace DateFormat

/-! ## How the parts of a date are written -/

/-- A date of the years 0 to 9999 in figures. -/
def dateText (separator : Char) (date : Date) : List Char :=
  Text.padded 4 date.year.toNat ++ separator :: (Text.padded 2 date.month ++ separator ::
    Text.padded 2 date.day)

/-- A time of day without its fraction. -/
def clockText (time : LocalTime) : List Char :=
  Text.padded 2 time.hour ++ ':' :: (Text.padded 2 time.minute ++ ':' :: Text.padded 2 time.second)

/-- The sign and the size of a number of minutes; zero goes with either sign. -/
inductive Signed : Int → Char → Nat → Prop
  | east (size : Nat) : Signed size '+' size
  | west (size : Nat) : Signed (-size) '-' size

/-- Two digits for the hours and two for the minutes of an offset, with something between them. -/
def offsetText (sign : Char) (size : Nat) (between : List Char) : List Char :=
  sign :: (Text.padded 2 (size / 60) ++ (between ++ Text.padded 2 (size % 60)))

def englishMonths : List String :=
  ["January", "February", "March", "April", "May", "June", "July", "August", "September", "October",
    "November", "December"]

/-- The name of a month or its first three letters, in letters of any case. -/
def NamesMonth (word : List Char) (month : Nat) : Prop :=
  ∃ name, (name, month) ∈ englishMonths.zipIdx 1 ∧
    (word.map Char.toLower = name.toList.map Char.toLower ∨
      word.map Char.toLower = (name.toList.take 3).map Char.toLower)

/-- The texts in each format of what a clock shows that is some minutes east of UTC. -/
inductive Spells (time : LocalTime) (minutes : Int) : DateFormat → List Char → Prop
  | iso {fraction : List Char} {sign : Char} {size : Nat} (some : fraction ≠ [])
      (digits : ∀ c ∈ fraction, c.isDigit = true)
      (exact : Text.number fraction * 10 ^ 9 = time.nanos * 10 ^ fraction.length)
      (offset : Signed minutes sign size) :
      Spells time minutes .iso
        (dateText '-' time.date ++ 'T' :: (clockText time ++ '.' :: (fraction ++ offsetText sign size [])))
  | weekday {weekday month name between : List Char} {sign : Char} {size : Nat} (whole : time.nanos = 0)
      (word : Text.IsWord weekday) (named : NamesMonth month time.date.month)
      (zone : name ∈ [[], ['G', 'M', 'T'], ['U', 'T', 'C']]) (colon : between ∈ [[], [':']])
      (offset : Signed minutes sign size) :
      Spells time minutes .weekday
        (weekday ++ ' ' :: (month ++ ' ' :: (Text.padded 2 time.date.day ++ ' ' :: (clockText time ++ ' ' ::
          ((name ++ offsetText sign size between) ++ ' ' :: Text.padded 4 time.date.year.toNat)))))
  | dashed {sign : Char} {size : Nat} (whole : time.nanos = 0) (offset : Signed minutes sign size) :
      Spells time minutes .dashed
        (dateText '-' time.date ++ ' ' :: (clockText time ++ ' ' :: offsetText sign size []))
  | slashed {sign : Char} {size : Nat} (whole : time.nanos = 0) (offset : Signed minutes sign size) :
      Spells time minutes .slashed
        (dateText '/' time.date ++ ' ' :: (clockText time ++ ' ' :: offsetText sign size []))

/-! ## Each part is read back -/

theorem number_space (width : Nat) (text : List Char) : number width (' ' :: text) = number width text := rfl

theorem timeOfDay_space (text : List Char) : timeOfDay (' ' :: text) = timeOfDay text := rfl

theorem offset_space (text : List Char) : offset (' ' :: text) = offset text := rfl

theorem year_space (text : List Char) : year (' ' :: text) = year text := rfl

/-- As many digits as there may be: those behind the ninth are zeros if they spell whole nanoseconds. -/
theorem fraction_written {digits : List Char} (some : digits ≠ []) (all : ∀ c ∈ digits, c.isDigit = true)
    {nanos : Nat} (exact : Text.number digits * 10 ^ 9 = nanos * 10 ^ digits.length) {more : List Char}
    (stop : more.head?.any Char.isDigit = false) : fraction ('.' :: (digits ++ more)) = .some (nanos, more) := by
  have run := Text.digitRun_of_isDigit all stop
  have counted : Text.number (digits.take 9) * 10 ^ (9 - (digits.take 9).length) = nanos := by
    by_cases short : digits.length ≤ 9
    · rw [List.take_of_length_le short]
      apply Nat.eq_of_mul_eq_mul_right (Nat.pow_pos (show 0 < 10 by decide) (n := digits.length))
      rw [Nat.mul_assoc, ← Nat.pow_add, Nat.sub_add_cancel short, exact]
    · have nine : (digits.take 9).length = 9 := List.length_take_of_le (by omega)
      have split := Text.number_append (digits.take 9) (digits.drop 9)
      have small := Text.number_lt fun c member => all c (List.mem_of_mem_drop (i := 9) member)
      have length : digits.length = (digits.drop 9).length + 9 := by
        rw [List.length_drop]
        omega
      rw [List.take_append_drop] at split
      rw [length, Nat.pow_add, ← Nat.mul_assoc] at exact
      have whole := Nat.eq_of_mul_eq_mul_right (by decide) exact
      have positive : 0 < 10 ^ (digits.drop 9).length := Nat.pow_pos (by decide)
      rw [nine, Nat.sub_self, Nat.pow_zero, Nat.mul_one]
      rw [split] at whole
      calc Text.number (digits.take 9)
          = (10 ^ (digits.drop 9).length * Text.number (digits.take 9) + Text.number (digits.drop 9)) /
              10 ^ (digits.drop 9).length := by
            rw [Nat.mul_add_div positive, Nat.div_eq_of_lt small, Nat.add_zero]
        _ = nanos * 10 ^ (digits.drop 9).length / 10 ^ (digits.drop 9).length := by rw [Nat.mul_comm, whole]
        _ = nanos := Nat.mul_div_cancel _ positive
  simp only [fraction, run]
  rw [if_neg (by simpa using some)]
  exact congrArg (fun n => Option.some (n, more)) counted

theorem twoDigits_padded {limit n : Nat} (fits : n < 10 * limit) (small : n < 10 ^ 2) (more : List Char) :
    twoDigits limit (Text.padded 2 n ++ more) = some (n, more) := by
  obtain ⟨a, b, equal⟩ := List.length_eq_two.mp (Text.padded_length (by decide) small)
  have digit (c : Char) (member : c ∈ [a, b]) : c.isDigit = true := Text.padded_isDigit (equal ▸ member)
  have spelled : Text.number [a, b] = n := by rw [← equal, Text.number_padded]
  have value : Text.number [a, b] = (0 * 10 + Text.digitValue a) * 10 + Text.digitValue b := rfl
  rw [equal]
  simp only [twoDigits, List.cons_append, List.nil_append]
  rw [if_pos, spelled]
  simp only [digit a (by simp), digit b (by simp), Bool.true_and, decide_eq_true_eq]
  omega

/-- The hours and the minutes of an offset make up its seconds. -/
theorem seconds_of_size (size : Nat) :
    ((size / 60 : Nat) : Int) * 3600 + ((size % 60 : Nat) : Int) * 60 = 60 * size := by omega

theorem offset_written {minutes : Int} {sign : Char} {size : Nat} (signed : Signed minutes sign size)
    (within : size < 1440) : offset (offsetText sign size []) = some (60 * minutes, []) := by
  have hours (more : List Char) := @twoDigits_padded 10 (size / 60) (by omega) (by omega) more
  have minute := @twoDigits_padded 6 (size % 60) (by omega) (by omega) []
  have next : (Text.padded 2 (size % 60)).dropWhile (fun c => c = ':' || Text.isBlank c) =
      Text.padded 2 (size % 60) := by
    obtain ⟨c, rest, equal, digit⟩ := padded_cons 2 (size % 60)
    have visible := not_isBlank_of_isDigit digit
    have other : c ≠ ':' := by
      rintro rfl
      contradiction
    rw [equal, List.dropWhile_cons_of_neg]
    simp [visible, other]
  rw [List.append_nil] at minute
  have few : ¬ 24 ≤ size / 60 := by omega
  have plus (rest : List Char) : Text.skipBlanks ('+' :: rest) = '+' :: rest := rfl
  have minus (rest : List Char) : Text.skipBlanks ('-' :: rest) = '-' :: rest := rfl
  cases signed with
  | east =>
    simp only [offset, offsetText, plus, List.nil_append, hours, next, minute, Option.bind_eq_bind,
      Option.bind_some, if_neg few, seconds_of_size]
    rfl
  | west =>
    simp only [offset, offsetText, minus, List.nil_append, hours, next, minute, Option.bind_eq_bind,
      Option.bind_some, if_neg few, seconds_of_size, Int.mul_neg]
    rfl

/-- No zone is known by a name with a sign in it. -/
theorem zone_eq_numericZone {name rest : List Char} (named : name ∈ [[], ['G', 'M', 'T'], ['U', 'T', 'C']])
    {sign : Char} (signs : sign = '+' ∨ sign = '-') :
    zone (name ++ sign :: rest) = numericZone (sign :: rest) := by
  have unsigned : ∀ known ∈ zoneNames, '+' ∉ known.1.toList ∧ '-' ∉ known.1.toList := by decide
  have unknown : zoneNames.lookup (String.ofList (name ++ sign :: rest)) = none := by
    rw [List.lookup_eq_none_iff]
    intro known member
    obtain ⟨plus, minus⟩ := unsigned known member
    rw [bne_iff_ne]
    rintro equal
    rw [← equal, String.toList_ofList] at plus minus
    rcases signs with rfl | rfl
    · exact plus (by simp)
    · exact minus (by simp)
  unfold zone
  rw [unknown]
  simp only [List.mem_cons, List.not_mem_nil, or_false] at named
  rcases named with rfl | rfl | rfl <;> rcases signs with rfl | rfl <;> rfl

theorem numericZone_written {minutes : Int} {sign : Char} {size : Nat} (signed : Signed minutes sign size)
    (within : size < 1440) {between : List Char} (colon : between ∈ [[], [':']]) :
    numericZone (offsetText sign size between) = some (60 * minutes) := by
  have hours : (Text.padded 2 (size / 60)).length = 2 := Text.padded_length (by decide) (by omega)
  have minute : (Text.padded 2 (size % 60)).length = 2 := Text.padded_length (by decide) (by omega)
  have plain (n : Nat) : (Text.padded 2 n).filter (· != ':') = Text.padded 2 n := by
    rw [List.filter_eq_self]
    intro c member
    rw [bne_iff_ne]
    rintro rfl
    exact absurd (Text.padded_isDigit member) (by decide)
  have gone : between.filter (· != ':') = [] := by
    simp only [List.mem_cons, List.not_mem_nil, or_false] at colon
    rcases colon with rfl | rfl <;> rfl
  have digits : (Text.padded 2 (size / 60) ++ (between ++ Text.padded 2 (size % 60))).filter (· != ':') =
      Text.padded 2 (size / 60) ++ Text.padded 2 (size % 60) := by
    rw [List.filter_append, List.filter_append, plain, plain, gone, List.nil_append]
  have all : (Text.padded 2 (size / 60) ++ Text.padded 2 (size % 60)).all Char.isDigit = true := by
    rw [List.all_eq_true]
    exact List.forall_mem_append.mpr ⟨fun _ => Text.padded_isDigit, fun _ => Text.padded_isDigit⟩
  have four : (Text.padded 2 (size / 60) ++ Text.padded 2 (size % 60)).length = 4 := by
    rw [List.length_append, hours, minute]
  have fits : ¬ (23 < size / 60 ∨ 59 < size % 60) := by omega
  cases signed with
  | east =>
    simp only [numericZone, offsetText, digits, all, four, List.take_left' hours, List.drop_left' hours,
      Text.number_padded, Option.bind_eq_bind, Option.bind_some, if_neg fits, seconds_of_size, Int.one_mul]
    rfl
  | west =>
    simp only [numericZone, offsetText, digits, all, four, List.take_left' hours, List.drop_left' hours,
      Text.number_padded, Option.bind_eq_bind, Option.bind_some, if_neg fits, seconds_of_size, Int.neg_one_mul,
      Int.mul_neg]
    rfl

theorem zone_written {minutes : Int} {sign : Char} {size : Nat} (signed : Signed minutes sign size)
    (within : size < 1440) {name between : List Char}
    (named : name ∈ [[], ['G', 'M', 'T'], ['U', 'T', 'C']]) (colon : between ∈ [[], [':']]) :
    zone (name ++ offsetText sign size between) = some (60 * minutes) := by
  have signs : sign = '+' ∨ sign = '-' := by cases signed <;> simp
  exact (zone_eq_numericZone named signs).trans (numericZone_written signed within colon)

/-! ## Months by name -/

/-- Whether a word is dropped depends on the case of no letter. -/
theorem dropWord_append {word : String} {text : List Char} (length : text.length = word.toList.length)
    (rest : List Char) :
    dropWord word (text ++ rest) = if text.map Char.toLower = word.toList then some rest else none := by
  simp only [dropWord]
  rw [List.take_left' length, List.drop_left' length]

/-- A space begins no word. -/
theorem dropWord_space {word : String} (letters : ' ' ∉ word.toList) (rest : List Char) :
    (dropWord word (' ' :: rest)).getD (' ' :: rest) = ' ' :: rest := by
  simp only [dropWord]
  cases spelled : word.toList with
  | nil => rfl
  | cons c tail =>
    have other : ¬ ' ' = c := by
      rintro rfl
      exact letters (spelled ▸ List.mem_cons_self)
    rw [List.length_cons, List.take_succ_cons, List.map_cons, if_neg]
    · rfl
    · exact fun same => other (List.cons.inj same).1

/-- The first three letters tell the month. -/
theorem monthName_begun {names : String × String} {index : Nat} (member : (names, index) ∈ monthNames.zipIdx)
    {begun : List Char} (same : begun.map Char.toLower = names.1.toList) (rest : List Char) :
    monthName (begun ++ rest) = some (index + 1, (dropWord names.2 rest).getD rest) := by
  have threes : ∀ names ∈ monthNames, names.1.toList.length = 3 := by decide
  have apart : ∀ one ∈ monthNames.zipIdx, ∀ two ∈ monthNames.zipIdx,
      one.1.1.toList = two.1.1.toList → one = two := by decide
  have drops {known : (String × String) × Nat} (listed : known ∈ monthNames.zipIdx) :
      dropWord known.1.1 (begun ++ rest) =
        if names.1.toList = known.1.1.toList then some rest else none := by
    have length : begun.length = known.1.1.toList.length := by
      rw [threes _ (List.fst_mem_of_mem_zipIdx listed), ← threes _ (List.fst_mem_of_mem_zipIdx member), ← same,
        List.length_map]
    rw [dropWord_append length, same]
  refine findSome?_of_unique member ?_ fun known listed found => ?_
  · simp only [drops member, if_pos, Option.map_some]
  · simp only [drops listed, Option.isSome_map] at found
    split at found
    · next equal => exact apart _ listed _ member equal.symm
    · contradiction

/-- A month by its name or by the first three letters of it, with a space behind. -/
theorem monthName_written {word : List Char} {month : Nat} (named : NamesMonth word month) (rest : List Char) :
    monthName (word ++ ' ' :: rest) = some (month, ' ' :: rest) := by
  have table : ∀ english ∈ englishMonths.zipIdx 1, ∃ known ∈ monthNames.zipIdx, english.2 = known.2 + 1 ∧
      english.1.toList.map Char.toLower = known.1.1.toList ++ known.1.2.toList ∧
      (english.1.toList.take 3).map Char.toLower = known.1.1.toList := by decide
  have letters : ∀ names ∈ monthNames, ' ' ∉ names.2.toList := by decide
  obtain ⟨name, english, spelled⟩ := named
  obtain ⟨⟨⟨short, long⟩, index⟩, member, rfl, whole, begun⟩ := table _ english
  have space := dropWord_space (letters _ (List.fst_mem_of_mem_zipIdx member)) rest
  rcases spelled with full | abridged
  · rw [whole] at full
    obtain ⟨first, second, rfl, one, two⟩ := List.map_eq_append_iff.mp full
    have length : second.length = long.toList.length := by rw [← two, List.length_map]
    rw [List.append_assoc, monthName_begun member one, dropWord_append length, if_pos two]
    rfl
  · rw [begun] at abridged
    rw [monthName_begun member abridged, space]

/-! ## Whole dates -/

section

variable {instant : Instant} {time : LocalTime} {minutes : Int} {sign : Char} {size : Nat}

theorem Signed.size_lt (signed : Signed minutes sign size) (within : -1440 < minutes ∧ minutes < 1440) :
    size < 1440 := by
  cases signed <;> omega

theorem Signed.sign_not_digit (signed : Signed minutes sign size) : sign.isDigit = false := by
  cases signed <;> rfl

theorem clockText_read (valid : time.IsValid) (more : List Char) :
    timeOfDay (clockText time ++ more) = some ((time.hour, time.minute, time.second), more) := by
  obtain ⟨-, hours, minutes, seconds⟩ := valid
  have read := timeOfDay_padded hours minutes seconds more
  simpa only [clockText, List.append_assoc, List.cons_append] using read

theorem dateText_read (valid : time.IsValid) (from0 : 0 ≤ time.date.year) (to9999 : time.date.year ≤ 9999)
    (separator : Char) (more : List Char) :
    yearMonthDay separator (dateText separator time.date ++ more) = some (time.date, more) := by
  obtain ⟨⟨-, months, -, days⟩, -⟩ := valid
  have days := Nat.le_trans days (Date.daysInMonth_le months)
  have read := yearMonthDay_padded (show time.date.year.toNat ≤ 9999 by omega) months days separator more
  rw [Int.toNat_of_nonneg from0] at read
  simpa only [dateText, List.append_assoc, List.cons_append] using read

theorem dateText_begins (separator : Char) (date : Date) (more : List Char) :
    Text.padded 4 date.year.toNat <+: dateText separator date ++ more :=
  (List.prefix_append ..).trans (List.prefix_append ..)

theorem offsetText_ends (sign : Char) (size : Nat) (between : List Char) :
    Text.padded 2 (size % 60) <:+ offsetText sign size between :=
  (((List.suffix_append ..).trans (List.suffix_append ..)).trans (List.suffix_cons ..))

variable {format : DateFormat} {text : List Char}

/-- A spelled date begins and ends with words, so the blanks around it are all that is taken off. -/
theorem Spells.trim (spelled : Spells time minutes format text) {before after : List Char}
    (front : ∀ c ∈ before, Text.isBlank c = true) (back : ∀ c ∈ after, Text.isBlank c = true) :
    Text.trim (before ++ text ++ after) = text := by
  have plain (separator : Char) (more : List Char) (sign : Char) (size : Nat)
      (ends : offsetText sign size [] <:+ more) :
      Text.trim (before ++ (dateText separator time.date ++ more) ++ after) =
        dateText separator time.date ++ more :=
    Text.trim_surrounded front back (dateText_begins separator time.date more) (Text.padded_isWord ..)
      ((offsetText_ends sign size []).trans (ends.trans (List.suffix_append ..))) (Text.padded_isWord ..)
  cases spelled with
  | @iso fraction sign size _ _ _ _ =>
    have ends : offsetText sign size [] <:+
        'T' :: (clockText time ++ '.' :: (fraction ++ offsetText sign size [])) :=
      ((List.suffix_append ..).trans (List.suffix_cons ..)).trans
        ((List.suffix_append ..).trans (List.suffix_cons ..))
    exact plain '-' _ sign size ends
  | weekday _ word _ _ _ _ =>
    have year := Text.padded_isWord 4 time.date.year.toNat
    refine Text.trim_surrounded front back (List.prefix_append ..) word ?_ year
    iterate 4 refine List.IsSuffix.trans ?_ ((List.suffix_cons ' ' _).trans (List.suffix_append ..))
    exact (List.suffix_cons ..).trans (List.suffix_append ..)
  | @dashed sign size _ _ | @slashed sign size _ _ =>
    have ends : offsetText sign size [] <:+ ' ' :: (clockText time ++ ' ' :: offsetText sign size []) :=
      ((List.suffix_cons ..).trans (List.suffix_append ..)).trans (List.suffix_cons ..)
    exact plain _ _ sign size ends

theorem readIso_written {fraction : List Char} (some : fraction ≠ []) (digits : ∀ c ∈ fraction, c.isDigit = true)
    (exact : Text.number fraction * 10 ^ 9 = time.nanos * 10 ^ fraction.length)
    (signed : Signed minutes sign size) (small : size < 1440) (valid : time.IsValid)
    (from0 : 0 ≤ time.date.year) (to9999 : time.date.year ≤ 9999) :
    readIso (dateText '-' time.date ++ 'T' :: (clockText time ++ '.' :: (fraction ++ offsetText sign size []))) =
      time.instant? (60 * minutes) := by
  have stop : (offsetText sign size []).head?.any Char.isDigit = false := signed.sign_not_digit
  simp only [readIso, dateText_read valid from0 to9999, mark_cons, clockText_read valid,
    fraction_written some digits exact stop, offset_written signed small, Option.bind_eq_bind, Option.bind_some]
  rfl

theorem readPlain_written (separator : Char) (whole : time.nanos = 0) (signed : Signed minutes sign size)
    (small : size < 1440) (valid : time.IsValid) (from0 : 0 ≤ time.date.year) (to9999 : time.date.year ≤ 9999) :
    readPlain separator
        (dateText separator time.date ++ ' ' :: (clockText time ++ ' ' :: offsetText sign size [])) =
      time.instant? (60 * minutes) := by
  simp only [readPlain, dateText_read valid from0 to9999, timeOfDay_space, clockText_read valid, offset_space,
    offset_written signed small, Option.bind_eq_bind, Option.bind_some]
  rw [← whole]
  rfl

theorem NamesMonth.isWord {word : List Char} {month : Nat} (named : NamesMonth word month) :
    Text.IsWord word := by
  have letters : ∀ english ∈ englishMonths.zipIdx 1,
      (english.1.toList.map Char.toLower).all Char.isAlpha ∧ 3 ≤ english.1.toList.length := by decide
  obtain ⟨name, english, spelled⟩ := named
  obtain ⟨letters, three⟩ := letters _ english
  dsimp only at letters three
  rw [List.all_eq_true] at letters
  have lower : ∀ c ∈ word.map Char.toLower, c.isAlpha = true := by
    rcases spelled with full | abridged
    · rwa [full]
    · rw [abridged, List.map_take]
      exact fun c member => letters c (List.mem_of_mem_take member)
  have length : 3 ≤ (word.map Char.toLower).length := by
    rcases spelled with full | abridged
    · rwa [full, List.length_map]
    · rw [abridged, List.length_map, List.length_take_of_le three]
  constructor
  · rintro rfl
    exact absurd length (by decide)
  · intro c member
    have letter := lower _ (List.mem_map_of_mem member)
    rw [Char.isAlpha_toLower_eq_isAlpha] at letter
    exact Bool.eq_false_iff.mpr fun blank => Text.not_isAlpha_of_isBlank blank letter

theorem clockText_isWord (time : LocalTime) : Text.IsWord (clockText time) := by
  have digits (n : Nat) := (Text.padded_isWord 2 n).2
  refine (Text.padded_isWord 2 time.hour).append (List.forall_mem_cons.mpr ⟨rfl, ?_⟩)
  exact List.forall_mem_append.mpr ⟨digits _, List.forall_mem_cons.mpr ⟨rfl, digits _⟩⟩

theorem Signed.zone_isWord (signed : Signed minutes sign size) {name between : List Char}
    (named : name ∈ [[], ['G', 'M', 'T'], ['U', 'T', 'C']]) (colon : between ∈ [[], [':']]) :
    Text.IsWord (name ++ offsetText sign size between) := by
  have names : ∀ name ∈ [[], ['G', 'M', 'T'], ['U', 'T', 'C']], ∀ c ∈ name, Text.isBlank c = false := by
    simp [Text.isBlank]
  have colons : ∀ between ∈ [[], [':']], ∀ c ∈ between, Text.isBlank c = false := by
    simp [Text.isBlank]
  have digits (n : Nat) := (Text.padded_isWord 2 n).2
  have visible : Text.isBlank sign = false := by cases signed <;> rfl
  have minute := List.forall_mem_append.mpr ⟨colons _ colon, digits (size % 60)⟩
  have offset : ∀ c ∈ offsetText sign size between, Text.isBlank c = false :=
    List.forall_mem_cons.mpr ⟨visible, List.forall_mem_append.mpr ⟨digits _, minute⟩⟩
  refine ⟨List.append_ne_nil_of_right_ne_nil _ (List.cons_ne_nil _ _), ?_⟩
  exact List.forall_mem_append.mpr ⟨names _ named, offset⟩

theorem readWeekday_written {weekday month name between : List Char} (whole : time.nanos = 0)
    (word : Text.IsWord weekday) (named : NamesMonth month time.date.month)
    (zone : name ∈ [[], ['G', 'M', 'T'], ['U', 'T', 'C']]) (colon : between ∈ [[], [':']])
    (signed : Signed minutes sign size) (small : size < 1440) (valid : time.IsValid)
    (from0 : 0 ≤ time.date.year) (to9999 : time.date.year ≤ 9999) :
    readWeekday (weekday ++ ' ' :: (month ++ ' ' :: (Text.padded 2 time.date.day ++ ' ' :: (clockText time ++
      ' ' :: ((name ++ offsetText sign size between) ++ ' ' :: Text.padded 4 time.date.year.toNat))))) =
      time.instant? (60 * minutes) := by
  have days : time.date.day < 10 ^ 2 := by
    obtain ⟨⟨-, months, -, days⟩, -⟩ := valid
    have days := Nat.le_trans days (Date.daysInMonth_le months)
    omega
  have clock : namedMonthTime (month ++ ' ' :: (Text.padded 2 time.date.day ++ ' ' ::
      (Text.padded 4 time.date.year.toNat ++ ' ' :: clockText time))) = some time := by
    have last := clockText_read valid []
    rw [List.append_nil] at last
    simp only [namedMonthTime, monthName_written named, number_space, number_padded (by decide) days, year_space,
      year_padded (show time.date.year.toNat < 10 ^ 4 by omega), timeOfDay_space, last,
      Int.toNat_of_nonneg from0, Option.bind_eq_bind, Option.bind_some]
    rw [← whole]
    rfl
  have words : Text.words (weekday ++ ' ' :: (month ++ ' ' :: (Text.padded 2 time.date.day ++ ' ' ::
      (clockText time ++ ' ' :: ((name ++ offsetText sign size between) ++ ' ' ::
      Text.padded 4 time.date.year.toNat))))) = [weekday, month, Text.padded 2 time.date.day, clockText time,
        name ++ offsetText sign size between, Text.padded 4 time.date.year.toNat] := by
    rw [Text.words_append word, Text.words_append named.isWord, Text.words_append (Text.padded_isWord ..),
      Text.words_append (clockText_isWord time), Text.words_append (signed.zone_isWord zone colon),
      Text.words_word (Text.padded_isWord ..)]
  simp only [readWeekday, words, zone_written signed small zone colon, clock, Option.bind_eq_bind,
    Option.bind_some]

/-- Whatever a clock shows is read as what it denotes, in any format that spells it. -/
theorem Spells.read (spelled : Spells time minutes format text)
    (valid : time.IsValid) (from0 : 0 ≤ time.date.year) (to9999 : time.date.year ≤ 9999)
    (within : -1440 < minutes ∧ minutes < 1440) {before after : List Char}
    (front : ∀ c ∈ before, Text.isBlank c = true) (back : ∀ c ∈ after, Text.isBlank c = true) :
    format.read (String.ofList (before ++ text ++ after)) = time.instant? (60 * minutes) := by
  unfold DateFormat.read
  rw [String.toList_ofList, spelled.trim front back]
  cases spelled with
  | iso some digits exact signed =>
    exact readIso_written some digits exact signed (signed.size_lt within) valid from0 to9999
  | weekday whole word named zone colon signed =>
    exact readWeekday_written whole word named zone colon signed (signed.size_lt within) valid from0 to9999
  | dashed whole signed => exact readPlain_written '-' whole signed (signed.size_lt within) valid from0 to9999
  | slashed whole signed => exact readPlain_written '/' whole signed (signed.size_lt within) valid from0 to9999

/-- Every spelling of an instant at an offset below a day, with blanks around it or not, is read as the
instant. The clock there shows a year of four digits; the instant itself may lie in the year before or behind. -/
theorem readFirst_spelled (proper : instant.IsProper) (within : -1440 < minutes ∧ minutes < 1440)
    (from0 : 0 ≤ (instant.later (60 * minutes)).year) (to9999 : (instant.later (60 * minutes)).year ≤ 9999)
    (spelled : Spells (LocalTime.ofInstant (instant.later (60 * minutes))) minutes format text)
    (before after : List Char) (front : ∀ c ∈ before, Text.isBlank c = true)
    (back : ∀ c ∈ after, Text.isBlank c = true) :
    readFirst standard (String.ofList (before ++ text ++ after)) = some instant := by
  have valid := LocalTime.ofInstant_isValid (proper.later minutes)
  have denotes := LocalTime.instant?_later within proper from0 to9999
  refine readFirst_eq_some_iff.mpr ⟨format, by cases format <;> decide, ?_⟩
  exact (spelled.read valid from0 to9999 within front back).trans denotes

/-- A quarter past midnight on the first day of 2013, half an hour west of UTC. -/
theorem readFirst_spelled_newYear :
    readFirst standard "2012-12-31T23:45:00.250-0030" = some ⟨1356999300, 250000000⟩ ∧
      readFirst standard " Mon DECEMBER 31 23:45:00 UTC-00:30 2012" = some ⟨1356999300, 0⟩ ∧
      readFirst standard "2012-12-31 23:45:00 -0030 " = some ⟨1356999300, 0⟩ ∧
      readFirst standard "\t2012/12/31 23:45:00 -0030\n" = some ⟨1356999300, 0⟩ := by
  have proper (nanos : Nat) (small : nanos < 1000000000) : (Instant.mk 1356999300 nanos).IsProper := .inl small
  have west : Signed (-30) '-' 30 := .west 30
  have december : NamesMonth "DECEMBER".toList 12 := ⟨"December", by decide, by decide⟩
  have monday : Text.IsWord "Mon".toList := ⟨by decide, by simp [Text.isBlank]⟩
  have blank {text : List Char} (all : text.all Text.isBlank) := List.all_eq_true.mp all
  have iso := readFirst_spelled (proper 250000000 (by decide)) (by decide) (by decide) (by decide)
    (@Spells.iso _ _ ['2', '5', '0'] _ _ (by decide) (List.all_eq_true.mp rfl) (by decide) west) [] []
    (blank rfl) (blank rfl)
  have weekday := readFirst_spelled (proper 0 (by decide)) (by decide) (by decide) (by decide)
    (@Spells.weekday _ _ "Mon".toList _ "UTC".toList [':'] _ _ rfl monday december (by decide) (by decide) west)
    [' '] [] (blank rfl) (blank rfl)
  have dashed := readFirst_spelled (proper 0 (by decide)) (by decide) (by decide) (by decide) (.dashed rfl west)
    [] [' '] (blank rfl) (blank rfl)
  have slashed := readFirst_spelled (proper 0 (by decide)) (by decide) (by decide) (by decide) (.slashed rfl west)
    ['\t'] ['\n'] (blank rfl) (blank rfl)
  refine ⟨.trans (congrArg _ ?_) iso, .trans (congrArg _ ?_) weekday, .trans (congrArg _ ?_) dashed,
    .trans (congrArg _ ?_) slashed⟩
  all_goals decide +kernel

end

end DateFormat

end JobQueue
