import HttpContract.Proofs.Calendar.Fields

/-!
# Calendar.Told — what some parts of an instant determine

The text of an instant tells some of its parts (`Fields.told`). They determine the day if they tell
a year and a place in it, or the week with its year and the weekday (`Fields.TellsDay`), and nothing
but a timestamp stands in for that (`Fields.tells_of_instant?`). Conversely the parts of one instant
do not contradict each other, so that they determine one again (`Fields.instant?_told`); a year that
is told by its last two digits only counts as one of the hundred years from 1970 on
(`Fields.recentYear`), which the other parts may contradict.
-/

namespace HttpContract.Calendar

/-- The value of a part at an instant, `fraction` being the nanoseconds that are told. -/
def Instant.part (t : Instant) (fraction : Nat) : Part → Int
  | .year => t.day.year
  | .century => t.day.year / 100
  | .yearOfCentury => t.day.year % 100
  | .weekYear => t.day.weekYear
  | .weekYearOfCentury => t.day.weekYear % 100
  | .quarter => t.day.quarter
  | .month => t.day.month
  | .day => t.day.dayOfMonth
  | .weekFromSunday => t.day.weekFrom 6
  | .weekFromMonday => t.day.weekFrom 0
  | .week => t.day.week
  | .weekday => t.day.weekday
  | .dayOfYear => t.day.dayOfYear
  | .half => t.secondOfDay / 3600 / 12
  | .hourOfHalf => t.secondOfDay / 3600 % 12
  | .minute => t.secondOfDay / 60 % 60
  | .second => t.secondOfDay % 60
  | .nanosecond => fraction
  | .timestamp => t.seconds
  | .offset => 0

/-- An instant of the years 0 to 9999 in no leap second. -/
structure Instant.Plain (t : Instant) : Prop where
  year : 0 ≤ t.day.year ∧ t.day.year ≤ 9999
  nanoseconds : t.nanoseconds < Instant.perSecond

/-- Neither the year of a week nor a timestamp is negative where it is told. -/
structure Instant.Unsigned (t : Instant) (parts : List Part) : Prop where
  weekYear : .weekYear ∈ parts ∨ .weekYearOfCentury ∈ parts → 0 ≤ t.day.weekYear
  timestamp : .timestamp ∈ parts → 0 ≤ t.seconds

theorem Instant.Unsigned.mono {t : Instant} {parts others : List Part} (h : t.Unsigned parts)
    (hmem : ∀ p ∈ others, p ≠ .nanosecond → p ∈ parts) : t.Unsigned others where
  weekYear := fun htold => h.weekYear
    (htold.imp (fun hp => hmem _ hp (by decide)) fun hp => hmem _ hp (by decide))
  timestamp := fun htold => h.timestamp (hmem _ htold (by decide))

theorem Instant.Plain.day {t : Instant} (h : t.Plain) : t.day.isSupported = true := by
  rw [Day.isSupported_iff, Day.supportsYear_iff]
  have := h.year
  unfold Day.firstYear Day.lastYear
  omega

theorem Instant.Plain.seconds {t : Instant} (h : t.Plain) :
    -62167219200 ≤ t.seconds ∧ t.seconds < 253402300800 := by
  have hfirst := le_year_iff.mp h.year.1
  have hlast := mt le_year_iff.mpr (show ¬ 10000 ≤ t.day.year by have := h.year.2; omega)
  have hstart : (Day.daysBefore 0 - Day.epoch) * perDay = -62167219200 := rfl
  have hend : (Day.daysBefore 10000 - Day.epoch) * perDay = 253402300800 := rfl
  omega

/-- The first two days of the year 0 belong to a week of the year before. -/
theorem Instant.Plain.weekYear {t : Instant} (h : t.Plain) :
    -1 ≤ t.day.weekYear ∧ t.day.weekYear ≤ 9999 := by
  obtain ⟨hlow, hhigh⟩ := h.seconds
  have hfirst : (⟨-62167219200, 0⟩ : Instant).day.weekYear = -1 := by decide +kernel
  have hlast : (⟨253402300799, 0⟩ : Instant).day.weekYear = 9999 := by decide +kernel
  exact ⟨hfirst ▸ weekYear_mono hlow, hlast ▸ weekYear_mono (Int.le_sub_one_of_lt hhigh)⟩

theorem Instant.Plain.between {lo hi t : Instant} (hlo : lo.Plain) (hhi : hi.Plain)
    (hlow : lo.seconds ≤ t.seconds) (hhigh : t.seconds ≤ hi.seconds)
    (hnano : t.nanoseconds < Instant.perSecond) : t.Plain where
  year := ⟨Int.le_trans hlo.year.1 (year_mono hlow), Int.le_trans (year_mono hhigh) hhi.year.2⟩
  nanoseconds := hnano

/-- Each part of an instant is a value that the part may take. -/
theorem Instant.Plain.part_inRange {t : Instant} (h : t.Plain) {fraction : Nat}
    (hfraction : fraction < perSecond) (p : Part) :
    p.range.1 ≤ t.part fraction p ∧ t.part fraction p ≤ p.range.2 := by
  have hyear := h.year
  have hweekYear := h.weekYear
  have hmonth := t.day.month_bounds
  have hseconds := isSupported_iff_seconds.mp h.day
  rw [firstSecond_eq, endSecond_eq] at hseconds
  cases p with
  | day => exact t.day.dayOfMonth_bounds
  | weekFromSunday => exact t.day.weekFrom_bounds 6
  | weekFromMonday => exact t.day.weekFrom_bounds 0
  | week => exact t.day.week_bounds
  | weekday => exact t.day.weekday_bounds
  | dayOfYear => exact t.day.dayOfYear_bounds
  | month => exact hmonth
  | quarter =>
    simp only [part, Part.range, Day.quarter]
    omega
  | _ =>
    simp only [part, Part.range, secondOfDay, perDay, perSecond] at *
    omega

namespace Fields

variable {fields : Fields} {parts : List Part}

/-! ## The parts that are told -/

/-- The fields in which just some parts are known. -/
def told (value : Part → Int) (parts : List Part) : Fields :=
  fun p => if p ∈ parts then some (value p) else none

theorem told_nil (value : Part → Int) : told value [] = empty := by
  funext p
  simp [told, empty]

theorem told_of_mem (value : Part → Int) {p : Part} (h : p ∈ parts) :
    told value parts p = some (value p) := if_pos h

theorem told_of_not_mem (value : Part → Int) {p : Part} (h : p ∉ parts) :
    told value parts p = none := if_neg h

theorem told_eq (value : Part → Int) (parts : List Part) (p : Part) :
    told value parts p = none ∨ told value parts p = some (value p) := by
  by_cases h : p ∈ parts
  · exact .inr (told_of_mem value h)
  · exact .inl (told_of_not_mem value h)

/-- Putting the value that a part has adds it to the parts that are told. -/
theorem put?_told {value : Part → Int} {p : Part}
    (h : p.range.1 ≤ value p ∧ value p ≤ p.range.2) :
    (told value parts).put? p (value p) = some (told value (p :: parts)) := by
  refine put?_eq_some.mpr ⟨h, told_eq value parts p, ?_⟩
  funext q
  by_cases hq : q = p
  · subst hq
    simp [told]
  · simp [told, hq]

theorem putAll?_told {value : Part → Int}
    (h : ∀ p : Part, p.range.1 ≤ value p ∧ value p ≤ p.range.2) (ps : List Part) :
    putAll? (ps.map fun p => (p, value p)) (told value parts)
      = some (told value (ps.reverse ++ parts)) := by
  induction ps generalizing parts with
  | nil => rfl
  | cons p ps ih =>
    rw [List.map_cons, putAll?, put?_told (h p), Option.bind_some, ih, List.reverse_cons,
      List.append_assoc, List.singleton_append]

@[simp] theorem admits_told (parts : List Part) (value : Part → Int) (p : Part) :
    (told value parts).admits p (value p) = true := by
  rw [admits]
  rcases told_eq value parts p with h | h <;> rw [h]
  exact beq_self_eq_true _

theorem admits_of_not_mem (value : Part → Int) {p : Part} (h : p ∉ parts) (v : Int) :
    (told value parts).admits p v = true := by
  rw [admits, told_of_not_mem value h]

/-! ## Years -/

/-- The year that the last two digits of a year are taken for. -/
def recentYear (y : Int) : Int := y % 100 + if y % 100 < 70 then 2000 else 1900

theorem recentYear_eq_self {y : Int} (h : 1970 ≤ y ∧ y ≤ 2069) : recentYear y = y := by
  rw [recentYear]
  split <;> omega

theorem recentYear_mod (y : Int) : recentYear y % 100 = y % 100 := by
  rw [recentYear]
  split <;> omega

theorem recentYear_bounds (y : Int) : 1970 ≤ recentYear y ∧ recentYear y ≤ 2069 := by
  rw [recentYear]
  split <;> omega

/-- The year that is taken for a leap year is one. -/
theorem isLeapYear_recentYear {y : Int} (h : Day.isLeapYear y = true) :
    Day.isLeapYear (recentYear y) = true := by
  simp only [Day.isLeapYear, Bool.and_eq_true, Bool.or_eq_true, beq_iff_eq, bne_iff_ne] at *
  rw [recentYear]
  split <;> omega

/-- What a year is told by does not contradict itself. -/
theorem yearOf_known {y : Int} (hpos : 0 ≤ y) {whole hundreds rest : Option Int}
    (hwhole : whole = none ∨ whole = some y)
    (hhundreds : hundreds = none ∨ hundreds = some (y / 100))
    (hrest : rest = none ∨ rest = some (y % 100))
    (h : whole = some y ∨ hundreds = some (y / 100) ∧ rest = some (y % 100)) :
    yearOf whole hundreds rest = .ok (some y) := by
  have hneg : ¬ y < 0 := by omega
  have hsum : y / 100 * 100 + y % 100 = y := by omega
  rcases hwhole with rfl | rfl
  · obtain ⟨rfl, rfl⟩ := h.resolve_left nofun
    simp only [yearOf, hsum]
  · rcases hhundreds with rfl | rfl <;> rcases hrest with rfl | rfl <;> simp [yearOf, hneg]

theorem yearOf_lastDigits (y : Int) :
    yearOf none none (some (y % 100)) = .ok (some (recentYear y)) :=
  rfl

/-- Parts tell the year of a day, by itself or by its last two digits. -/
def TellsYear (parts : List Part) : Prop := .year ∈ parts ∨ .yearOfCentury ∈ parts

/-- Parts tell the place of a day in its year. -/
def TellsPlace (parts : List Part) : Prop :=
  .month ∈ parts ∧ .day ∈ parts ∨ .dayOfYear ∈ parts
    ∨ .weekFromSunday ∈ parts ∧ .weekday ∈ parts ∨ .weekFromMonday ∈ parts ∧ .weekday ∈ parts

/-- Parts tell a day by its year and the place in it. -/
def TellsByYear (parts : List Part) : Prop := TellsYear parts ∧ TellsPlace parts

/-- Parts tell a day by its week and the weekday. A century without a year is in the way. -/
def TellsByWeek (parts : List Part) : Prop :=
  (.century ∈ parts → TellsYear parts) ∧ (.weekYear ∈ parts ∨ .weekYearOfCentury ∈ parts)
    ∧ .week ∈ parts ∧ .weekday ∈ parts

/-- Parts tell a day. -/
def TellsDay (parts : List Part) : Prop := TellsByYear parts ∨ TellsByWeek parts

instance (parts : List Part) : Decidable (TellsYear parts) := inferInstanceAs (Decidable (_ ∨ _))

instance (parts : List Part) : Decidable (TellsPlace parts) := inferInstanceAs (Decidable (_ ∨ _))

instance (parts : List Part) : Decidable (TellsByYear parts) := inferInstanceAs (Decidable (_ ∧ _))

instance (parts : List Part) : Decidable (TellsByWeek parts) := inferInstanceAs (Decidable (_ ∧ _))

instance (parts : List Part) : Decidable (TellsDay parts) := inferInstanceAs (Decidable (_ ∨ _))

/-- The year that is read where some parts of a date in year `y` are told. -/
def yearFrom (parts : List Part) (y : Int) : Int :=
  if .year ∈ parts ∨ .century ∈ parts then y else recentYear y

/-- The year of the week that is read where some parts of a date in year `y` are told. -/
def weekYearFrom (parts : List Part) (y : Int) : Int :=
  if .weekYear ∈ parts then y else recentYear y

section Told

variable {t : Instant} (fraction : Nat)

theorem yearOf_told (hpos : 0 ≤ t.day.year) (h : TellsYear parts) :
    yearOf (told (t.part fraction) parts .year) (told (t.part fraction) parts .century)
        (told (t.part fraction) parts .yearOfCentury)
      = .ok (some (yearFrom parts t.day.year)) := by
  have hwhole := told_eq (t.part fraction) parts .year
  have hhundreds := told_eq (t.part fraction) parts .century
  have hrest := told_eq (t.part fraction) parts .yearOfCentury
  rw [yearFrom]
  by_cases hyear : .year ∈ parts
  · rw [if_pos (.inl hyear)]
    exact yearOf_known hpos hwhole hhundreds hrest (.inl (told_of_mem _ hyear))
  · have hdigits := told_of_mem (t.part fraction) (h.resolve_left hyear)
    by_cases hcentury : .century ∈ parts
    · rw [if_pos (.inr hcentury)]
      exact yearOf_known hpos hwhole hhundreds hrest (.inr ⟨told_of_mem _ hcentury, hdigits⟩)
    · rw [if_neg (not_or.mpr ⟨hyear, hcentury⟩), told_of_not_mem _ hyear,
        told_of_not_mem _ hcentury, hdigits]
      exact yearOf_lastDigits _

theorem yearOf_told_none (hcentury : .century ∈ parts → TellsYear parts) (h : ¬ TellsYear parts) :
    yearOf (told (t.part fraction) parts .year) (told (t.part fraction) parts .century)
        (told (t.part fraction) parts .yearOfCentury) = .ok none := by
  obtain ⟨hyear, hdigits⟩ := not_or.mp h
  rw [told_of_not_mem _ hyear, told_of_not_mem _ (mt hcentury h), told_of_not_mem _ hdigits]
  rfl

theorem yearOf_told_week (hpos : 0 ≤ t.day.weekYear)
    (h : .weekYear ∈ parts ∨ .weekYearOfCentury ∈ parts) :
    yearOf (told (t.part fraction) parts .weekYear) none
        (told (t.part fraction) parts .weekYearOfCentury)
      = .ok (some (weekYearFrom parts t.day.weekYear)) := by
  rw [weekYearFrom]
  by_cases hyear : .weekYear ∈ parts
  · rw [if_pos hyear]
    exact yearOf_known hpos (told_eq (t.part fraction) parts .weekYear) (.inl rfl)
      (told_eq (t.part fraction) parts .weekYearOfCentury) (.inl (told_of_mem _ hyear))
  · rw [if_neg hyear, told_of_not_mem _ hyear, told_of_mem _ (h.resolve_left hyear)]
    exact yearOf_lastDigits _

/-- The year of the week is told or not, but there is no contradiction. -/
theorem exists_yearOf_told_week (hpos : t.Unsigned parts) :
    ∃ y?, yearOf (told (t.part fraction) parts .weekYear) none
      (told (t.part fraction) parts .weekYearOfCentury) = .ok y? := by
  by_cases h : .weekYear ∈ parts ∨ .weekYearOfCentury ∈ parts
  · exact ⟨_, yearOf_told_week fraction (hpos.weekYear h) h⟩
  · obtain ⟨hyear, hdigits⟩ := not_or.mp h
    rw [told_of_not_mem _ hyear, told_of_not_mem _ hdigits]
    exact ⟨none, rfl⟩

/-! ## Days -/

/-- The first parts that tell a place in a year. -/
def placeRoute? (fields : Fields) (y : Int) : Option DayRoute :=
  (do some (DayRoute.inMonth y (← fields .month) (← fields .day)))
    <|> (do some (DayRoute.inYear y (← fields .dayOfYear)))
    <|> (do some (DayRoute.inWeekFrom y (← fields .weekFromSunday) (← fields .weekday) 6))
    <|> (do some (DayRoute.inWeekFrom y (← fields .weekFromMonday) (← fields .weekday) 0))

/-- The parts that tell a week and its weekday. -/
def weekRoute? (fields : Fields) (weekYear? : Option Int) : Option DayRoute :=
  do some (DayRoute.inWeek (← weekYear?) (← fields .week) (← fields .weekday))

theorem dayRoute?_some (fields : Fields) (y : Int) (weekYear? : Option Int) :
    fields.dayRoute? (some y) weekYear?
      = (fields.placeRoute? y).or (fields.weekRoute? weekYear?) := by
  simp only [dayRoute?, placeRoute?, weekRoute?, Option.orElse_eq_orElse, Option.orElse_eq_or,
    Option.or_assoc]
  rfl

theorem dayRoute?_none (fields : Fields) (weekYear? : Option Int) :
    fields.dayRoute? none weekYear? = fields.weekRoute? weekYear? := rfl

theorem placeRoute?_isSome_iff {y : Int} : (fields.placeRoute? y).isSome = true ↔
    (fields .month).isSome = true ∧ (fields .day).isSome = true ∨ (fields .dayOfYear).isSome = true
      ∨ (fields .weekFromSunday).isSome = true ∧ (fields .weekday).isSome = true
      ∨ (fields .weekFromMonday).isSome = true ∧ (fields .weekday).isSome = true := by
  simp only [placeRoute?, Option.orElse_eq_orElse, Option.orElse_eq_or, Option.isSome_or,
    Bool.or_eq_true]
  cases fields .month <;> cases fields .day <;> cases fields .dayOfYear <;>
    cases fields .weekFromSunday <;> cases fields .weekFromMonday <;> cases fields .weekday <;>
    simp

theorem weekRoute?_isSome_iff {weekYear? : Option Int} :
    (fields.weekRoute? weekYear?).isSome = true ↔
      weekYear?.isSome = true ∧ (fields .week).isSome = true ∧ (fields .weekday).isSome = true := by
  rw [weekRoute?]
  cases weekYear? <;> cases fields .week <;> cases fields .weekday <;> simp

/-- The route to a day that the parts admit. -/
theorem day_of_route {year? weekYear? : Option Int} {route : DayRoute} {d : Day}
    (hyear : yearOf (fields .year) (fields .century) (fields .yearOfCentury) = .ok year?)
    (hweekYear : yearOf (fields .weekYear) none (fields .weekYearOfCentury) = .ok weekYear?)
    (hroute : fields.dayRoute? year? weekYear? = some route) (hday : route.day? = some d)
    (hdate : fields.admitsDate d = true) (hweek : fields.admitsWeek d = true)
    (hplace : fields.admitsPlace d = true) (hquarter : fields.admits .quarter d.quarter = true) :
    fields.day = .ok d := by
  simp [day, bind, Except.bind, hyear, hweekYear, hroute, hday, hdate, hweek, hplace, hquarter]

/-- The parts of an instant admit its day. -/
theorem admits_told_day (hyear : 0 ≤ t.day.year) (hpos : t.Unsigned parts) :
    (told (t.part fraction) parts).admitsDate t.day = true
      ∧ (told (t.part fraction) parts).admitsWeek t.day = true
      ∧ (told (t.part fraction) parts).admitsPlace t.day = true
      ∧ (told (t.part fraction) parts).admits .quarter t.day.quarter = true := by
  have hadmits (p : Part) := admits_told parts (t.part fraction) p
  have hdigits : (if 0 ≤ t.day.weekYear
      then (told (t.part fraction) parts).admits .weekYearOfCentury (t.day.weekYear % 100)
      else (told (t.part fraction) parts .weekYearOfCentury).isNone) = true := by
    split
    · exact hadmits .weekYearOfCentury
    · next hneg =>
      rw [told_of_not_mem _ fun htold => hneg (hpos.weekYear (.inr htold))]
      rfl
  simp only [admitsDate, admitsYear, admitsWeek, admitsPlace, hyear, hdigits, if_true,
    Bool.and_eq_true]
  exact ⟨⟨⟨⟨hadmits .year, hadmits .century, hadmits .yearOfCentury⟩, hadmits .month⟩,
    hadmits .day⟩, ⟨⟨⟨hadmits .weekYear, trivial⟩, hadmits .week⟩,
    hadmits .weekday⟩, ⟨⟨hadmits .dayOfYear, hadmits .weekFromSunday⟩, hadmits .weekFromMonday⟩,
    hadmits .quarter⟩

/-- A place in the year of an instant leads to its day, however it is told. -/
theorem placeRoute?_told_day (hday : t.day.isSupported = true) {route : DayRoute}
    (h : (told (t.part fraction) parts).placeRoute? t.day.year = some route) :
    route.day? = some t.day := by
  have hknown : ∀ {p : Part} {v : Int}, told (t.part fraction) parts p = some v →
      v = t.part fraction p := fun {p} {v} hv =>
    (told_eq (t.part fraction) parts p).elim (fun h => nomatch h.symm.trans hv)
      fun h => Option.some.inj (hv.symm.trans h)
  simp only [placeRoute?, Option.orElse_eq_orElse, Option.orElse_eq_or, Option.or_eq_some_iff,
    Option.bind_eq_bind, Option.bind_eq_some_iff, Option.some.injEq] at h
  obtain ⟨m, hm, d, hd, rfl⟩ | ⟨-, ⟨p, hp, rfl⟩ |
    ⟨-, ⟨w, hw, d, hd, rfl⟩ | ⟨-, w, hw, d, hd, rfl⟩⟩⟩ := h
  · rw [hknown hm, hknown hd]
    exact Day.ofDate?_monthAndDay hday
  · rw [hknown hp]
    exact Day.ofDayOfYear?_dayOfYear hday
  · rw [hknown hw, hknown hd]
    exact Day.ofWeekFrom?_weekFrom hday 6
  · rw [hknown hw, hknown hd]
    exact Day.ofWeekFrom?_weekFrom hday 0

theorem told_isSome_iff {value : Part → Int} {p : Part} :
    (told value parts p).isSome = true ↔ p ∈ parts := by
  rw [told]
  split <;> simp [*]

theorem placeRoute?_told_isSome_iff (y : Int) :
    ((told (t.part fraction) parts).placeRoute? y).isSome = true ↔ TellsPlace parts := by
  simp only [placeRoute?_isSome_iff, told_isSome_iff, TellsPlace]

/-- The parts of an instant that tell its day determine it again, unless the year is told by its
last two digits and taken for another one. -/
theorem day_told (ht : t.Plain) (hpos : t.Unsigned parts) (h : TellsDay parts)
    (hyear : TellsByYear parts → yearFrom parts t.day.year = t.day.year)
    (hweekYear : ¬ TellsByYear parts → weekYearFrom parts t.day.weekYear = t.day.weekYear) :
    (told (t.part fraction) parts).day = .ok t.day := by
  obtain ⟨hdate, hweek, hplace, hquarter⟩ :=
    admits_told_day fraction ht.year.1 hpos
  by_cases hby : TellsByYear parts
  · obtain ⟨weekYear?, hweekYear?⟩ := exists_yearOf_told_week fraction hpos
    have hsome := yearOf_told fraction ht.year.1 hby.1
    rw [hyear hby] at hsome
    obtain ⟨route, hroute⟩ :=
      Option.isSome_iff_exists.mp ((placeRoute?_told_isSome_iff fraction t.day.year).mpr hby.2)
    refine day_of_route hsome hweekYear? ?_ (placeRoute?_told_day fraction ht.day hroute) hdate
      hweek hplace hquarter
    rw [dayRoute?_some, hroute, Option.some_or]
  · obtain ⟨hcentury, hknown, hw, hd⟩ := h.resolve_left hby
    have hsome := yearOf_told_week fraction (hpos.weekYear hknown) hknown
    rw [hweekYear hby] at hsome
    have hroute : (told (t.part fraction) parts).weekRoute? (some t.day.weekYear)
        = some (.inWeek t.day.weekYear t.day.week t.day.weekday) := by
      rw [weekRoute?, told_of_mem _ hw, told_of_mem _ hd]
      rfl
    have hday : (DayRoute.inWeek t.day.weekYear t.day.week t.day.weekday).day? = some t.day :=
      Day.ofWeek?_week ht.day
    by_cases hyears : TellsYear parts
    · refine day_of_route (yearOf_told fraction ht.year.1 hyears) hsome ?_ hday hdate hweek hplace
        hquarter
      have hnone : (told (t.part fraction) parts).placeRoute? (yearFrom parts t.day.year) =
          none := by
        rw [← Option.not_isSome_iff_eq_none, placeRoute?_told_isSome_iff]
        exact fun hp => hby ⟨hyears, hp⟩
      rw [dayRoute?_some, hnone, hroute, Option.none_or]
    · refine day_of_route (yearOf_told_none fraction hcentury hyears) hsome ?_ hday hdate hweek
        hplace hquarter
      rw [dayRoute?_none, hroute]

/-- The parts of a date that all years with the same last digits have in common. -/
def OnlyDate (parts : List Part) : Prop :=
  .month ∈ parts ∧ .day ∈ parts ∧ .year ∉ parts ∧ .century ∉ parts ∧ .weekYear ∉ parts
    ∧ .weekYearOfCentury ∉ parts ∧ .week ∉ parts ∧ .weekday ∉ parts ∧ .dayOfYear ∉ parts
    ∧ .weekFromSunday ∉ parts ∧ .weekFromMonday ∉ parts

instance (parts : List Part) : Decidable (OnlyDate parts) := inferInstanceAs (Decidable (_ ∧ _))

/-- Month, day and the last two digits of the year determine a day, be it in another century. -/
theorem exists_day_told_onlyDate (ht : t.Plain) (hpos : t.Unsigned parts) (hyear : TellsYear parts)
    (h : OnlyDate parts) :
    ∃ d, (told (t.part fraction) parts).day = .ok d := by
  obtain ⟨hm, hd, hy, hc, hwy, hwc, hw, hwd, hdoy, hws, hwm⟩ := h
  have hbounds := recentYear_bounds t.day.year
  have hsupported : Day.supportsYear (recentYear t.day.year) = true := by
    rw [Day.supportsYear_iff]
    unfold Day.firstYear Day.lastYear
    omega
  obtain ⟨d, hdate, hdyear, hdmonth, hdday⟩ :=
    t.day.exists_ofDate? hsupported isLeapYear_recentYear
  have hfrom : yearFrom parts t.day.year = recentYear t.day.year :=
    if_neg (not_or.mpr ⟨hy, hc⟩)
  obtain ⟨weekYear?, hweekYear?⟩ := exists_yearOf_told_week fraction hpos
  have hadmits (p : Part) := admits_told parts (t.part fraction) p
  have hother {p : Part} (hp : p ∉ parts) (v : Int) :=
    admits_of_not_mem (t.part fraction) hp v
  have hroute : (told (t.part fraction) parts).dayRoute? (some (recentYear t.day.year)) weekYear?
      = some (.inMonth (recentYear t.day.year) t.day.month t.day.dayOfMonth) := by
    rw [dayRoute?_some, placeRoute?, told_of_mem _ hm, told_of_mem _ hd]
    rfl
  refine ⟨d, day_of_route (hfrom ▸ yearOf_told fraction ht.year.1 hyear) hweekYear? hroute hdate
    ?_ ?_ ?_ ?_⟩
  · have hdigits := hadmits .yearOfCentury
    simp only [Instant.part] at hdigits
    rw [admitsDate, admitsYear, hdyear, recentYear_mod, hdmonth, hdday, hother hy, hother hc,
      hdigits, if_pos (show 0 ≤ recentYear t.day.year by omega)]
    simp only [Bool.and_self, Bool.true_and, Bool.and_eq_true]
    exact ⟨hadmits .month, hadmits .day⟩
  · rw [admitsWeek, hother hwy, hother hwc, hother hw, hother hwd, told_of_not_mem _ hwc]
    simp
  · rw [admitsPlace, hother hdoy, hother hws, hother hwm]
    rfl
  · rw [Day.quarter, hdmonth]
    exact hadmits .quarter

/-- Without a day there is no contradiction either: something is missing. -/
theorem day_told_missing (ht : t.Plain) (hpos : t.Unsigned parts) (h : ¬ TellsDay parts) :
    (told (t.part fraction) parts).day = .error .missing := by
  obtain ⟨hplace, hweek⟩ := not_or.mp h
  obtain ⟨weekYear?, hweekYear?⟩ := exists_yearOf_told_week fraction hpos
  have hnoWeek (hcentury : .century ∈ parts → TellsYear parts) :
      (told (t.part fraction) parts).weekRoute? weekYear? = none := by
    rw [← Option.not_isSome_iff_eq_none, weekRoute?_isSome_iff, told_isSome_iff, told_isSome_iff]
    rintro ⟨hsome, hw, hd⟩
    refine hweek ⟨hcentury, ?_, hw, hd⟩
    by_contra hnone
    obtain ⟨hyear, hdigits⟩ := not_or.mp hnone
    rw [told_of_not_mem _ hyear, told_of_not_mem _ hdigits] at hweekYear?
    cases hweekYear?
    cases hsome
  by_cases hyears : TellsYear parts
  · have hnoPlace : (told (t.part fraction) parts).placeRoute? (yearFrom parts t.day.year) =
        none := by
      rw [← Option.not_isSome_iff_eq_none, placeRoute?_told_isSome_iff]
      exact fun hp => hplace ⟨hyears, hp⟩
    simp [day, bind, Except.bind, yearOf_told fraction ht.year.1 hyears, hweekYear?, dayRoute?_some,
      hnoPlace, hnoWeek fun _ => hyears]
  · by_cases hcentury : .century ∈ parts
    · obtain ⟨hyear, hdigits⟩ := not_or.mp hyears
      simp only [day, bind, Except.bind, told_of_not_mem _ hyear, told_of_not_mem _ hdigits,
        told_of_mem _ hcentury]
      rfl
    · simp [day, bind, Except.bind, yearOf_told_none fraction (fun h => absurd h hcentury) hyears,
        hweekYear?, dayRoute?_none, hnoWeek fun h => absurd h hcentury]

/-! ## Instants -/

theorem time_ne_contradiction (fields : Fields) : fields.time ≠ .error .contradiction := by
  unfold time
  split
  · split
    · nofun
    · nofun
    · split <;> nofun
  · nofun

theorem exists_time_told (hhalf : .half ∈ parts) (hhour : .hourOfHalf ∈ parts)
    (hminute : .minute ∈ parts) (hsecond : .second ∈ parts) :
    ∃ time, (told (t.part fraction) parts).time = .ok time := by
  simp only [time, told_of_mem _ hhalf, told_of_mem _ hhour, told_of_mem _ hminute,
    told_of_mem _ hsecond]
  split <;> exact ⟨_, rfl⟩

/-- Some parts with those that a timestamp tells. -/
def withTimestamp (parts : List Part) : List Part :=
  .minute :: .hourOfHalf :: .half :: .dayOfYear :: .year :: .second :: parts

theorem tellsByYear_withTimestamp (parts : List Part) : TellsByYear (withTimestamp parts) :=
  ⟨.inl (by simp [withTimestamp]), .inr (.inl (by simp [withTimestamp]))⟩

/-- A timestamp tells all the parts that are missing. -/
theorem fromTimestamp?_told (parts : List Part) (ht : t.Plain)
    (hfraction : fraction < Instant.perSecond) :
    (told (t.part fraction) parts).fromTimestamp? t.seconds 0
      = some (told (t.part fraction) (withTimestamp parts)) := by
  have hrange := ht.part_inRange hfraction
  have hsupported : Instant.supported? ⟨t.seconds + 0, 0⟩ = some ⟨t.seconds, 0⟩ := by
    rw [Int.add_zero]
    exact if_pos ht.day
  have hsecond : ¬ told (t.part fraction) parts .second = some 60 := by
    intro h
    have hsixty := (told_eq (t.part fraction) parts .second).resolve_left (by simp [h])
    rw [h, Option.some.injEq, Instant.part] at hsixty
    omega
  rw [fromTimestamp?_eq, hsupported, Option.bind_some, if_neg hsecond]
  exact (congrArg (Option.bind · _) (put?_told (hrange .second))).trans
    (putAll?_told hrange [.year, .dayOfYear, .half, .hourOfHalf, .minute])

/-- The parts of an instant determine one if a timestamp is among them. -/
theorem localInstant?_told_timestamp (ht : t.Plain) (hpos : t.Unsigned parts)
    (hfraction : fraction < Instant.perSecond) (h : ¬ TellsDay parts)
    (htimestamp : .timestamp ∈ parts) :
    ((told (t.part fraction) parts).localInstant? 0).isSome = true := by
  have hcompleted := fromTimestamp?_told fraction parts ht hfraction
  have hby := tellsByYear_withTimestamp parts
  have hposAll : t.Unsigned (withTimestamp parts) :=
    ⟨by simpa [withTimestamp] using hpos.weekYear, by simpa [withTimestamp] using hpos.timestamp⟩
  have hday : (told (t.part fraction) (withTimestamp parts)).day = .ok t.day :=
    day_told fraction ht hposAll (.inl hby) (fun _ => by simp [yearFrom, withTimestamp])
      (fun hnot => absurd hby hnot)
  have htime : ∃ time, (told (t.part fraction) (withTimestamp parts)).time = .ok time :=
    exists_time_told fraction (by simp [withTimestamp]) (by simp [withTimestamp])
      (by simp [withTimestamp]) (by simp [withTimestamp])
  obtain ⟨time, htime⟩ := htime
  have hno := time_ne_contradiction (told (t.part fraction) parts)
  rw [localInstant?, day_told_missing fraction ht hpos h, told_of_mem _ htimestamp]
  simp only [Instant.part, Option.bind_eq_bind, Option.bind_some, hcompleted, hday, htime,
    Option.isSome_some]

/-- The start of a day that is told is an instant. -/
theorem instant?_isSome_of_day {d : Day} (h : fields.day = .ok d) :
    fields.instant?.isSome = true := by
  have hstart : fields.startOfDay? = some (Instant.startOf d) := by rw [startOfDay?, h]
  simp [instant?, Option.orElse_eq_orElse, Option.orElse_eq_or, hstart]

theorem instant?_isSome_of_local (h : (fields.localInstant? 0).isSome = true) :
    fields.instant?.isSome = true := by
  simp [instant?, Option.orElse_eq_orElse, Option.orElse_eq_or, Option.isSome_or, h]

/-- Parts with an offset, but without a timestamp, determine an instant by day and time. -/
theorem zonedInstant?_told (ht : t.Plain) (hfraction : fraction < Instant.perSecond)
    (hday : (told (t.part fraction) parts).day = .ok t.day) {time : Int × Nat}
    (htime : (told (t.part fraction) parts).time = .ok time) (hoffset : .offset ∈ parts)
    (htimestamp : .timestamp ∉ parts) :
    (told (t.part fraction) parts).zonedInstant?.isSome = true := by
  have hinRange : (told (t.part fraction) parts).InRange := by
    intro p v hv
    rcases told_eq (t.part fraction) parts p with h | h
    · cases h.symm.trans hv
    · cases h.symm.trans hv
      exact ht.part_inRange hfraction p
  have hproper := combine_proper ht.day (time_bounds hinRange htime)
  have hlocal : (told (t.part fraction) parts).localInstant? 0 = some (combine t.day time) := by
    rw [localInstant?, hday, htime]
    simp [admitsTimestamp, told_of_not_mem _ htimestamp]
  have hsupported : Instant.supported?
      { combine t.day time with seconds := (combine t.day time).seconds - 0 }
        = some (combine t.day time) := by
    rw [Int.sub_zero]
    exact if_pos hproper.day
  exact Option.isSome_iff_exists.mpr ⟨_, zonedInstant?_eq_some.mpr
    ⟨0, _, .inl (told_of_mem _ hoffset), hlocal, by decide, hsupported⟩⟩

/-- The century of a year is told, or nothing that is told depends on it. -/
def SettlesCentury (parts : List Part) : Prop :=
  .year ∈ parts ∨ .century ∈ parts ∨ OnlyDate parts

instance (parts : List Part) : Decidable (SettlesCentury parts) :=
  inferInstanceAs (Decidable (_ ∨ _))

/-- An instant is read back from some of its parts: it is plain and what is told of it has no sign,
and where the day rests on the last two digits of a year, that year lies in the hundred years from
1970 on or its century does not matter. -/
structure Covers (parts : List Part) (t : Instant) : Prop where
  plain : t.Plain
  unsigned : t.Unsigned parts
  year : TellsByYear parts → SettlesCentury parts ∨ 1970 ≤ t.day.year ∧ t.day.year ≤ 2069
  weekYear : TellsByWeek parts → ¬ TellsByYear parts → .weekYear ∈ parts
    ∨ 1970 ≤ t.day.weekYear ∧ t.day.weekYear ≤ 2069

theorem Covers.exists_day (h : Covers parts t) (hday : TellsDay parts) :
    ∃ d, (told (t.part fraction) parts).day = .ok d := by
  by_cases honly : OnlyDate parts ∧ TellsYear parts
  · exact exists_day_told_onlyDate fraction h.plain h.unsigned honly.2 honly.1
  · refine ⟨t.day, day_told fraction h.plain h.unsigned hday (fun hby => ?_) (fun hnot => ?_)⟩
    · rw [yearFrom]
      split
      · rfl
      · next hdigits =>
        rcases h.year hby with (hyear | hcentury | hdate) | hrecent
        · exact absurd (.inl hyear) hdigits
        · exact absurd (.inr hcentury) hdigits
        · exact absurd ⟨hdate, hby.1⟩ honly
        · exact recentYear_eq_self hrecent
    · rw [weekYearFrom]
      split
      · rfl
      · next hdigits =>
        exact recentYear_eq_self ((h.weekYear (hday.resolve_left hnot) hnot).resolve_left hdigits)

/-- The parts of an instant that tell a day or a timestamp determine an instant. -/
theorem Covers.instant?_told (h : Covers parts t) (hfraction : fraction < Instant.perSecond)
    (htells : TellsDay parts ∨ .timestamp ∈ parts) :
    (told (t.part fraction) parts).instant?.isSome = true := by
  by_cases hday : TellsDay parts
  · obtain ⟨d, hd⟩ := h.exists_day fraction hday
    exact instant?_isSome_of_day hd
  · exact instant?_isSome_of_local (localInstant?_told_timestamp fraction h.plain h.unsigned
      hfraction hday (htells.resolve_left hday))

/-- The nanoseconds play no part in it. -/
theorem Covers.congr {others : List Part} (h : Covers parts t)
    (hsame : ∀ p, p ≠ .nanosecond → (p ∈ others ↔ p ∈ parts)) : Covers others t := by
  refine ⟨h.plain, h.unsigned.mono fun p hp hne => (hsame p hne).mp hp, ?_, ?_⟩
  · simpa only [TellsByYear, TellsYear, TellsPlace, SettlesCentury, OnlyDate, hsame, ne_eq,
      reduceCtorEq, not_false_eq_true] using h.year
  · simpa only [TellsByWeek, TellsByYear, TellsYear, TellsPlace, hsame, ne_eq, reduceCtorEq,
      not_false_eq_true] using h.weekYear

theorem tellsDay_congr {others : List Part}
    (hsame : ∀ p, p ≠ .nanosecond → (p ∈ others ↔ p ∈ parts)) :
    TellsDay others ↔ TellsDay parts := by
  simp only [TellsDay, TellsByWeek, TellsByYear, TellsYear, TellsPlace, hsame, ne_eq, reduceCtorEq,
    not_false_eq_true]

end Told

/-- The instants that are read back lie beside each other. -/
theorem Covers.between {lo hi t : Instant} (hlo : Covers parts lo) (hhi : Covers parts hi)
    (hlow : lo.seconds ≤ t.seconds) (hhigh : t.seconds ≤ hi.seconds)
    (hnano : t.nanoseconds < Instant.perSecond) : Covers parts t := by
  have hyearLow := Instant.year_mono hlow
  have hyearHigh := Instant.year_mono hhigh
  have hweekLow := Instant.weekYear_mono hlow
  have hweekHigh := Instant.weekYear_mono hhigh
  refine ⟨hlo.plain.between hhi.plain hlow hhigh hnano, ⟨fun hmem => ?_, fun hmem => ?_⟩,
    fun hby => ?_, fun hby hnot => ?_⟩
  · exact Int.le_trans (hlo.unsigned.weekYear hmem) hweekLow
  · exact Int.le_trans (hlo.unsigned.timestamp hmem) hlow
  · rcases hlo.year hby with hsettled | hfirst
    · exact .inl hsettled
    · exact (hhi.year hby).imp_right fun hlast => by omega
  · rcases hlo.weekYear hby hnot with htold | hfirst
    · exact .inl htold
    · exact (hhi.weekYear hby hnot).imp_right fun hlast => by omega

/-! ## What has to be told -/

theorem yearOf_eq_ok {whole hundreds rest year? : Option Int}
    (h : yearOf whole hundreds rest = .ok year?) :
    (year?.isSome = true → whole.isSome = true ∨ rest.isSome = true)
      ∧ (hundreds.isSome = true → whole.isSome = true ∨ rest.isSome = true) := by
  cases whole <;> cases hundreds <;> cases rest <;> simp_all [yearOf]

/-- A day is determined only by parts that tell one. -/
theorem tellsDay_of_day (hknown : ∀ p, p ≠ .nanosecond → ((fields p).isSome = true ↔ p ∈ parts))
    {d : Day} (h : fields.day = .ok d) : TellsDay parts := by
  have hmem {p : Part} (hp : p ≠ .nanosecond) := hknown p hp
  rw [day] at h
  obtain ⟨year?, hyear, h⟩ := bind_ok.mp h
  obtain ⟨weekYear?, hweekYear, h⟩ := bind_ok.mp h
  have hyears := yearOf_eq_ok hyear
  have hweekYears := (yearOf_eq_ok hweekYear).1
  rw [hmem (by decide), hmem (by decide), hmem (by decide)] at hyears
  rw [hmem (by decide), hmem (by decide)] at hweekYears
  have hroute : (fields.dayRoute? year? weekYear?).isSome = true := by
    split at h
    · cases h
    · simp [*]
  have hbyWeek (hweek : (fields.weekRoute? weekYear?).isSome = true) : TellsByWeek parts := by
    rw [weekRoute?_isSome_iff, hmem (by decide), hmem (by decide)] at hweek
    exact ⟨hyears.2, hweekYears hweek.1, hweek.2⟩
  cases year? with
  | none => exact .inr (hbyWeek hroute)
  | some y =>
    rw [dayRoute?_some, Option.isSome_or, Bool.or_eq_true] at hroute
    refine hroute.imp (fun hplace => ⟨hyears.1 rfl, ?_⟩) hbyWeek
    simp only [placeRoute?_isSome_iff, hmem, ne_eq, reduceCtorEq, not_false_eq_true] at hplace
    exact hplace

theorem day_or_timestamp_of_localInstant? {offset : Int} {t : Instant}
    (h : fields.localInstant? offset = some t) :
    (∃ d, fields.day = .ok d) ∨ (fields .timestamp).isSome = true := by
  rw [localInstant?] at h
  split at h
  · next d time hday htime => exact .inl ⟨d, hday⟩
  · cases h
  · cases h
  · obtain ⟨timestamp, htimestamp, -⟩ := Option.bind_eq_some_iff.mp h
    exact .inr (Option.isSome_iff_exists.mpr ⟨timestamp, htimestamp⟩)

/-- An instant is determined only by parts that tell a day or a timestamp. -/
theorem tells_of_instant? (hknown : ∀ p, p ≠ .nanosecond → ((fields p).isSome = true ↔ p ∈ parts))
    {t : Instant} (h : fields.instant? = some t) : TellsDay parts ∨ .timestamp ∈ parts := by
  have hlocal {offset : Int} {u : Instant} (hu : fields.localInstant? offset = some u) :
      TellsDay parts ∨ .timestamp ∈ parts :=
    (day_or_timestamp_of_localInstant? hu).imp (fun ⟨_, hd⟩ => tellsDay_of_day hknown hd)
      (hknown .timestamp (by decide)).mp
  simp only [instant?, Option.orElse_eq_orElse, Option.orElse_eq_or, Option.or_eq_some_iff] at h
  obtain h | ⟨-, h | ⟨-, h⟩⟩ := h
  · obtain ⟨offset, u, -, hu, -⟩ := zonedInstant?_eq_some.mp h
    exact hlocal hu
  · exact hlocal h
  · rw [startOfDay?] at h
    split at h
    · next d hd => exact .inl (tellsDay_of_day hknown hd)
    · cases h

end Fields

end HttpContract.Calendar
