import JobQueue.Proofs.DateFormat.Spelling

/-! # Zones and their grammar

A numeric zone is a sign and the digits of its hours, or of its hours and minutes with or without a colon
between them. The reader drops all colons before it counts digits, so it accepts just these zones and those
that become one of them when colons are dropped from anywhere behind the sign. A date that begins with the
weekday is refused if its zone is neither known by name nor numeric.
-/

namespace JobQueue

namespace DateFormat

/-! ## The grammar -/

/-- East is counted up, west down. -/
inductive ZoneSign : Char → Int → Prop
  | east : ZoneSign '+' 1
  | west : ZoneSign '-' (-1)

theorem ZoneSign.mark_eq {mark : Char} {sign : Int} (isSign : ZoneSign mark sign) : mark = '+' ∨ mark = '-' := by
  cases isSign with
  | east => exact .inl rfl
  | west => exact .inr rfl

/-- Hours and minutes behind the sign: `h`, `hh`, `hhmm` or `hh:mm`. -/
inductive ZoneClock : List Char → Nat → Nat → Prop
  | hour {a : Char} (digits : [a].all Char.isDigit = true) : ZoneClock [a] (Text.number [a]) 0
  | hours {a b : Char} (digits : [a, b].all Char.isDigit = true) : ZoneClock [a, b] (Text.number [a, b]) 0
  | joined {a b c d : Char} (digits : [a, b, c, d].all Char.isDigit = true) :
      ZoneClock [a, b, c, d] (Text.number [a, b]) (Text.number [c, d])
  | parted {a b c d : Char} (digits : [a, b, c, d].all Char.isDigit = true) :
      ZoneClock [a, b, ':', c, d] (Text.number [a, b]) (Text.number [c, d])

/-- The numeric zones and their offsets in seconds. -/
inductive SpellsZone : List Char → Int → Prop
  | signed {mark : Char} {sign : Int} {rest : List Char} {hours minutes : Nat} (isSign : ZoneSign mark sign)
      (clock : ZoneClock rest hours minutes) (aDay : hours ≤ 23) (anHour : minutes ≤ 59) :
      SpellsZone (mark :: rest) (sign * (hours * 3600 + minutes * 60))

/-- A zone without the colons behind its sign. -/
def withoutColons : List Char → List Char
  | [] => []
  | mark :: rest => mark :: rest.filter (· != ':')

/-- A colon behind the sign that does not stand alone between two characters and two more. -/
def StrayColon (zone : List Char) : Prop :=
  ':' ∈ zone.tail ∧ ∀ mark a b c d, ':' ∉ [a, b, c, d] → zone ≠ [mark, a, b, ':', c, d]

/-! ## Numeric zones -/

/-- The numbers of one, two or four digits. -/
def clock? (digits : List Char) : Option (Nat × Nat) :=
  match digits.length with
  | 1 | 2 => some (Text.number digits, 0)
  | 4 => some (Text.number (digits.take 2), Text.number (digits.drop 2))
  | _ => none

theorem colon_not_mem {digits : List Char} (all : digits.all Char.isDigit = true) : ':' ∉ digits :=
  fun member => absurd (List.all_eq_true.mp all ':' member) (by decide)

/-- But for the colon, the hours and minutes are digits. -/
theorem ZoneClock.all_isDigit {text : List Char} {hours minutes : Nat} (clock : ZoneClock text hours minutes)
    (plain : ':' ∉ text) : text.all Char.isDigit = true := by
  cases clock with
  | hour digits | hours digits | joined digits => exact digits
  | parted => simp at plain

theorem clock?_eq_some_iff {digits : List Char} (all : digits.all Char.isDigit = true) (hours minutes : Nat) :
    clock? digits = some (hours, minutes) ↔ ZoneClock digits hours minutes := by
  have plain := colon_not_mem all
  constructor
  · intro read
    rcases digits with _ | ⟨a, _ | ⟨b, _ | ⟨c, _ | ⟨d, _ | ⟨e, more⟩⟩⟩⟩⟩
    · contradiction
    · cases read
      exact .hour all
    · cases read
      exact .hours all
    · contradiction
    · cases read
      exact .joined all
    · simp [clock?] at read
  · intro clock
    cases clock with
    | hour | hours | joined => rfl
    | parted => simp at plain

theorem numericZone_signed {mark : Char} {sign : Int} (isSign : ZoneSign mark sign) (rest : List Char) :
    numericZone (mark :: rest) =
      if !(rest.filter (· != ':')).all Char.isDigit then none
      else (clock? (rest.filter (· != ':'))).bind fun (hours, minutes) =>
        if 23 < hours ∨ 59 < minutes then none else some (sign * (hours * 3600 + minutes * 60)) := by
  -- the sign decides the factor alone, the count of digits all the rest
  cases isSign
  all_goals
    simp only [numericZone, clock?, Option.bind_eq_bind, Option.bind_some]
    generalize (rest.filter (· != ':')).length = count
    rcases count with _ | _ | _ | _ | _ | count <;> rfl

theorem sign_of_numericZone {zone : List Char} {east : Int} (read : numericZone zone = some east) :
    ∃ mark sign rest, zone = mark :: rest ∧ ZoneSign mark sign := by
  unfold numericZone at read
  simp only at read
  split at read
  · exact ⟨_, _, _, rfl, .east⟩
  · exact ⟨_, _, _, rfl, .west⟩
  · contradiction

/-- A zone without its colons is read by the grammar. -/
theorem numericZone_eq_some_iff (zone : List Char) (east : Int) :
    numericZone zone = some east ↔ SpellsZone (withoutColons zone) east := by
  constructor
  · intro read
    obtain ⟨mark, sign, rest, rfl, isSign⟩ := sign_of_numericZone read
    rw [numericZone_signed isSign, Option.ite_none_left_eq_some, Bool.not_eq_true, Bool.not_eq_false'] at read
    obtain ⟨all, read⟩ := read
    obtain ⟨⟨hours, minutes⟩, clock, bounded⟩ := Option.bind_eq_some_iff.mp read
    obtain ⟨small, equal⟩ := Option.ite_none_left_eq_some.mp bounded
    obtain rfl := Option.some.inj equal
    rw [not_or, Nat.not_lt, Nat.not_lt] at small
    exact .signed isSign ((clock?_eq_some_iff all _ _).mp clock) small.1 small.2
  · intro spelled
    cases zone with
    | nil => cases spelled
    | cons mark rest =>
      cases spelled with
      | signed isSign clock aDay anHour =>
        have all := clock.all_isDigit (by simp)
        have small : ¬ (23 < _ ∨ 59 < _) := not_or.mpr ⟨Nat.not_lt.mpr aDay, Nat.not_lt.mpr anHour⟩
        rw [numericZone_signed isSign, all, (clock?_eq_some_iff all _ _).mpr clock]
        exact if_neg small

theorem withoutColons_eq_self {mark : Char} {rest : List Char} (plain : ':' ∉ rest) :
    withoutColons (mark :: rest) = mark :: rest := by
  rw [withoutColons, List.filter_eq_self.mpr]
  intro c member
  rw [bne_iff_ne]
  rintro rfl
  exact plain member

/-- Between the hours and the minutes a colon may stand or not. -/
theorem withoutColons_parted {mark a b c d : Char} (plain : ':' ∉ [a, b, c, d]) :
    withoutColons [mark, a, b, ':', c, d] = [mark, a, b, c, d] := by
  rw [← withoutColons_eq_self plain]
  rfl

/-- A zone is one of the grammar if it is without its colons, and if none of them has gone astray. -/
theorem spellsZone_iff (zone : List Char) (east : Int) :
    SpellsZone zone east ↔ SpellsZone (withoutColons zone) east ∧ ¬ StrayColon zone := by
  constructor
  · intro spelled
    cases spelled with
    | @signed mark sign rest hours minutes isSign clock aDay anHour =>
      have unparted (plain : ':' ∉ rest) :
          SpellsZone (withoutColons (mark :: rest)) (sign * (hours * 3600 + minutes * 60)) ∧
            ¬ StrayColon (mark :: rest) := by
        rw [withoutColons_eq_self plain]
        exact ⟨.signed isSign clock aDay anHour, fun stray => plain stray.1⟩
      cases clock with
      | hour digits | hours digits | joined digits => exact unparted (colon_not_mem digits)
      | parted digits =>
        rw [withoutColons_parted (colon_not_mem digits)]
        refine ⟨.signed isSign (.joined digits) aDay anHour, ?_⟩
        rintro ⟨-, astray⟩
        exact astray _ _ _ _ _ (colon_not_mem digits) rfl
  · rintro ⟨spelled, tidy⟩
    by_cases colon : ':' ∈ zone.tail
    · simp only [StrayColon, not_and, not_forall, not_not] at tidy
      obtain ⟨mark, a, b, c, d, plain, rfl⟩ := tidy colon
      rw [withoutColons_parted plain] at spelled
      cases spelled with
      | signed isSign clock aDay anHour =>
        cases clock with
        | joined digits => exact .signed isSign (.parted digits) aDay anHour
    · cases zone with
      | nil => exact spelled
      | cons mark rest =>
        have plain : ':' ∉ rest := colon
        rwa [withoutColons_eq_self plain] at spelled

/-! ## Zones in dates -/

/-- The zones that are accepted and their offsets: those known by name, and numeric ones, perhaps behind `GMT`
or `UTC`. -/
inductive DenotesZone : List Char → Int → Prop
  | named {text : List Char} {hours : Int} (known : (String.ofList text, hours) ∈ zoneNames) :
      DenotesZone text (hours * 3600)
  | numeric {name rest : List Char} {east : Int} (before : name ∈ [[], ['G', 'M', 'T'], ['U', 'T', 'C']])
      (spelled : SpellsZone rest east ∨ StrayColon rest ∧ SpellsZone (withoutColons rest) east) :
      DenotesZone (name ++ rest) east

theorem numericZone_eq_some_iff_grammar (zone : List Char) (east : Int) : numericZone zone = some east ↔
    SpellsZone zone east ∨ StrayColon zone ∧ SpellsZone (withoutColons zone) east := by
  rw [numericZone_eq_some_iff, spellsZone_iff zone east]
  by_cases stray : StrayColon zone
  · simp [stray]
  · simp [stray]

theorem zone_eq_some_iff (text : List Char) (east : Int) : zone text = some east ↔ DenotesZone text east := by
  constructor
  · intro read
    unfold zone at read
    split at read
    · next hours known =>
      cases read
      obtain ⟨before, behind, names, -⟩ := List.lookup_eq_some_iff.mp known
      exact .named (names ▸ by simp)
    · rw [numericZone_eq_some_iff_grammar] at read
      split at read
      · exact @DenotesZone.numeric ['G', 'M', 'T'] _ _ (by simp) read
      · exact @DenotesZone.numeric ['U', 'T', 'C'] _ _ (by simp) read
      · exact @DenotesZone.numeric [] _ _ (by simp) read
  · intro denotes
    cases denotes with
    | named known =>
      have found : ∀ known ∈ zoneNames, zoneNames.lookup known.1 = some known.2 := by decide
      unfold zone
      rw [found _ known]
    | numeric before spelled =>
      have read := (numericZone_eq_some_iff_grammar _ _).mpr spelled
      obtain ⟨mark, sign, rest, rfl, isSign⟩ := sign_of_numericZone read
      rw [zone_eq_numericZone before isSign.mark_eq, read]

/-- Numeric zones are read by the grammar, but for colons that have gone astray in them. A date that begins
with the weekday is read just if its zone is known by name or numeric, and then as the instant at which a
clock at that offset shows the rest of it. -/
theorem zones_follow_grammar (offset : List Char) (seconds : Int) (text : String) (instant : Instant) :
    (numericZone offset = some seconds ↔
      SpellsZone offset seconds ∨ StrayColon offset ∧ SpellsZone (withoutColons offset) seconds) ∧
    (weekday.read text = some instant ↔
      ∃ day month date time zone year east clock,
        Text.words (Text.trim text.toList) = [day, month, date, time, zone, year] ∧ DenotesZone zone east ∧
          namedMonthTime (month ++ ' ' :: (date ++ ' ' :: (year ++ ' ' :: time))) = some clock ∧
            clock.instant? east = some instant) := by
  refine ⟨numericZone_eq_some_iff_grammar offset seconds, ?_⟩
  constructor
  · intro read
    change readWeekday (Text.trim text.toList) = some instant at read
    unfold readWeekday at read
    split at read
    · next day month date time zone year words =>
      simp only [Option.bind_eq_bind, Option.bind_eq_some_iff] at read
      obtain ⟨east, zones, clock, clocks, whole⟩ := read
      have denotes := (zone_eq_some_iff _ _).mp zones
      exact ⟨day, month, date, time, zone, year, east, clock, words, denotes, clocks, whole⟩
    · contradiction
  · rintro ⟨day, month, date, time, zone, year, east, clock, words, zones, clocks, whole⟩
    change readWeekday (Text.trim text.toList) = some instant
    unfold readWeekday
    rw [words]
    simp only [(zone_eq_some_iff _ _).mpr zones, clocks, whole, Option.bind_eq_bind, Option.bind_some]

/-- A colon among the digits is dropped, so that a zone is accepted which is none of the grammar. -/
theorem stray_colon_accepted : numericZone "+0:530".toList = some 19800 ∧
    (∀ east, ¬ SpellsZone "+0:530".toList east) ∧
    weekday.read "Thu March 07 21:26:05 +0:530 2013" = some ⟨1362671765, 0⟩ := by
  refine ⟨by decide, ?_, by decide +kernel⟩
  intro east spelled
  exact ((spellsZone_iff _ _).mp spelled).2 ⟨by decide, by simp⟩

end DateFormat

end JobQueue
