import HttpContract.Calendar.Day

/-!
# Calendar.Day — a day is found by its parts

The year of a day and the days before it in that year make up the day again (`ofYearOffset_year`),
and no other year and place do (`yearAndOffset_ofYearOffset`). From this each constructor gives back
the day whose parts it is given: month and day (`ofDate?_monthAndDay`), day of the year
(`ofDayOfYear?_dayOfYear`), week and weekday (`ofWeekFrom?_weekFrom`, `ofWeek?_week`). What the
constructors give at all is a day of the supported years. Each part lies in a small range, and month
and day of the month are found again in every year that is leap if that of the day is
(`exists_ofDate?`).
-/

namespace HttpContract.Calendar.Day

/-! ## Years -/

theorem daysInYear_pos (year : Int) : 0 < daysInYear year := by
  unfold daysInYear
  split <;> decide

theorem daysBefore_succ (year : Int) :
    daysBefore (year + 1) = daysBefore year + daysInYear year := by
  unfold daysBefore daysInYear
  by_cases h : isLeapYear year = true
  · rw [if_pos h]
    simp [isLeapYear] at h
    omega
  · rw [if_neg h]
    simp [isLeapYear] at h
    omega

/-- A year is over before a later one begins. -/
theorem daysBefore_add_le {y z : Int} (h : y < z) : daysBefore y + daysInYear y ≤ daysBefore z := by
  rw [← daysBefore_succ]
  unfold daysBefore
  omega

/-- The cycle of four hundred years, the century, the group of four years, the year and the place
in it that make up a day. Only a leap year has a last place. -/
theorem exists_parts (d : Day) : ∃ cycle century group single place : Int,
    d.yearAndOffset = (cycle * 400 + century * 100 + group * 4 + single + 1, place)
      ∧ d.number + epoch
        = cycle * 146097 + century * 36524 + group * 1461 + single * 365 + place
      ∧ (0 ≤ century ∧ century ≤ 3) ∧ (0 ≤ group ∧ group ≤ 24) ∧ (0 ≤ single ∧ single ≤ 3)
      ∧ 0 ≤ place ∧ place ≤ 365 ∧ (place = 365 → single = 3 ∧ (group = 24 → century = 3)) := by
  refine ⟨_, _, _, _, _, rfl, ?_⟩
  generalize d.number + epoch = days
  have hlow := Int.emod_nonneg days (show (146097 : Int) ≠ 0 by decide)
  have hhigh := Int.emod_lt_of_pos days (show (0 : Int) < 146097 by decide)
  have hdays := Int.mul_ediv_add_emod days 146097
  generalize days % 146097 = inCycle at *
  -- each digit is named before the next one is looked at
  generalize hcentury : min 3 (inCycle / 36524) = century
  have hc : 0 ≤ century ∧ century ≤ 3 ∧ 0 ≤ inCycle - century * 36524
      ∧ inCycle - century * 36524 ≤ 36524
      ∧ (inCycle - century * 36524 = 36524 → century = 3) := by omega
  generalize hinCentury : inCycle - century * 36524 = inCentury at *
  generalize hgroup : inCentury / 1461 = group
  have hg : 0 ≤ group ∧ group ≤ 24 ∧ 0 ≤ inCentury - group * 1461
      ∧ inCentury - group * 1461 ≤ 1460
      ∧ (inCentury - group * 1461 = 1460 → group = 24 → century = 3) := by omega
  generalize hinGroup : inCentury - group * 1461 = inGroup at *
  omega

theorem daysBefore_parts (cycle : Int) {century group single : Int}
    (hcentury : 0 ≤ century ∧ century ≤ 3) (hgroup : 0 ≤ group ∧ group ≤ 24)
    (hsingle : 0 ≤ single ∧ single ≤ 3) :
    daysBefore (cycle * 400 + century * 100 + group * 4 + single + 1)
        = cycle * 146097 + century * 36524 + group * 1461 + single * 365
      ∧ daysInYear (cycle * 400 + century * 100 + group * 4 + single + 1)
        = if single = 3 ∧ (group = 24 → century = 3) then 366 else 365 := by
  constructor
  · unfold daysBefore
    omega
  · unfold daysInYear isLeapYear
    congr 1
    simp
    omega

/-- The year and the place in it make up the day, and the place lies in the year. -/
theorem yearAndOffset_spec (d : Day) :
    ofYearOffset d.year d.yearAndOffset.2 = d ∧ 0 ≤ d.yearAndOffset.2
      ∧ d.yearAndOffset.2 < daysInYear d.year := by
  obtain ⟨cycle, century, group, single, place, hparts, hdays, hc, hg, hs, hp⟩ := d.exists_parts
  obtain ⟨hbefore, hlength⟩ := daysBefore_parts cycle hc hg hs
  simp only [year, hparts, ofYearOffset, hbefore, hlength]
  refine ⟨?_, hp.1, ?_⟩
  · obtain ⟨n⟩ := d
    simp only [Day.mk.injEq] at *
    omega
  · split <;> omega

theorem ofYearOffset_year (d : Day) : ofYearOffset d.year d.yearAndOffset.2 = d :=
  d.yearAndOffset_spec.1

theorem number_eq (d : Day) : d.number + epoch = daysBefore d.year + d.yearAndOffset.2 := by
  have hnumber := congrArg Day.number d.ofYearOffset_year
  simp only [ofYearOffset] at hnumber
  omega

/-- The year and the place are those that a day was made from. -/
theorem yearAndOffset_ofYearOffset {year offset : Int} (hlow : 0 ≤ offset)
    (hhigh : offset < daysInYear year) :
    (ofYearOffset year offset).yearAndOffset = (year, offset) := by
  obtain ⟨heq, hlow', hhigh'⟩ := (ofYearOffset year offset).yearAndOffset_spec
  rw [Day.year] at heq hhigh'
  generalize (ofYearOffset year offset).yearAndOffset = parts at *
  obtain ⟨y, place⟩ := parts
  simp only [ofYearOffset, Day.mk.injEq] at heq hlow' hhigh'
  rcases Int.lt_trichotomy y year with hlt | rfl | hgt
  · have := daysBefore_add_le hlt
    omega
  · rw [show place = offset by omega]
  · have := daysBefore_add_le hgt
    omega

/-- A year has begun by a day if its first day has. -/
theorem le_year_iff {y : Int} {d : Day} : y ≤ d.year ↔ daysBefore y ≤ d.number + epoch := by
  obtain ⟨-, hlow, hhigh⟩ := d.yearAndOffset_spec
  have hnumber := d.number_eq
  constructor
  · intro hle
    by_cases hsame : y = d.year
    · subst hsame
      omega
    · have hbefore := daysBefore_add_le (show y < d.year by omega)
      have hpos := daysInYear_pos y
      omega
  · intro hle
    refine Int.not_lt.mp fun hlt => ?_
    have hbefore := daysBefore_add_le hlt
    omega

theorem supportsYear_iff {y : Int} :
    supportsYear y = true ↔ firstYear ≤ y ∧ y ≤ lastYear := by
  rw [supportsYear, Bool.and_eq_true, decide_eq_true_eq, decide_eq_true_eq]

theorem isSupported_iff {d : Day} : d.isSupported = true ↔ supportsYear d.year = true := by
  rw [supportsYear_iff, ← Int.lt_add_one_iff (a := d.year), ← Int.not_le (a := lastYear + 1),
    le_year_iff, le_year_iff, isSupported, Bool.and_eq_true, decide_eq_true_eq, decide_eq_true_eq,
    ofYearOffset, ofYearOffset]
  simp only
  omega

theorem ofYearOffset_supported {y offset : Int} (hyear : supportsYear y = true) (hlow : 0 ≤ offset)
    (hhigh : offset < daysInYear y) : (ofYearOffset y offset).isSupported = true := by
  rw [isSupported_iff, year, yearAndOffset_ofYearOffset hlow hhigh]
  exact hyear

/-! ## Months -/

/-- The days of some months. -/
def total (lengths : List Int) : Int := lengths.foldr (· + ·) 0

theorem total_cons (length : Int) (rest : List Int) :
    total (length :: rest) = length + total rest := rfl

theorem total_monthLengths (year : Int) :
    total (monthLengths (isLeapYear year)) = daysInYear year := by
  unfold daysInYear
  cases isLeapYear year <;> rfl

theorem monthLengths_nonneg (leap : Bool) : ∀ length ∈ monthLengths leap, 0 ≤ length := by
  cases leap <;> decide

/-- Some days into months lie in one of them. -/
theorem findMonth_spec (month : Int) {offset : Int} {lengths : List Int} (hlow : 0 ≤ offset)
    (hhigh : offset < total lengths) :
    ∃ (i : Nat) (length : Int), lengths[i]? = some length
      ∧ findMonth month lengths offset = (month + i, offset - total (lengths.take i) + 1)
      ∧ total (lengths.take i) ≤ offset ∧ offset < total (lengths.take i) + length := by
  induction lengths generalizing month offset with
  | nil => exact absurd hhigh (Int.not_lt.mpr hlow)
  | cons first rest ih =>
    rw [total_cons] at hhigh
    by_cases hfirst : offset < first
    · refine ⟨0, first, rfl, ?_, hlow, ?_⟩
      · rw [findMonth, if_pos hfirst]
        simp [total]
      · simp [total]
        omega
    · obtain ⟨i, length, hlength, hfind, hle, hlt⟩ :=
        ih (month + 1) (show 0 ≤ offset - first by omega) (by omega)
      refine ⟨i + 1, length, hlength, ?_, ?_, ?_⟩
      · rw [findMonth, if_neg hfirst, hfind, List.take_succ_cons, total_cons]
        simp only [Prod.mk.injEq]
        omega
      · rw [List.take_succ_cons, total_cons]
        omega
      · rw [List.take_succ_cons, total_cons]
        omega

theorem total_nonneg {lengths : List Int} (h : ∀ length ∈ lengths, 0 ≤ length) :
    0 ≤ total lengths := by
  induction lengths with
  | nil => exact Int.le_refl 0
  | cons first rest ih =>
    obtain ⟨hfirst, hrest⟩ := List.forall_mem_cons.mp h
    exact Int.add_nonneg hfirst (ih hrest)

theorem total_take_add_le {lengths : List Int} (h : ∀ length ∈ lengths, 0 ≤ length) {i : Nat}
    {length : Int} (hi : lengths[i]? = some length) :
    0 ≤ total (lengths.take i) ∧ total (lengths.take i) + length ≤ total lengths := by
  induction lengths generalizing i with
  | nil => simp at hi
  | cons first rest ih =>
    obtain ⟨hfirst, hrest⟩ := List.forall_mem_cons.mp h
    cases i with
    | zero =>
      obtain rfl : first = length := by simpa using hi
      have hpos := total_nonneg hrest
      have hnone : total ((first :: rest).take 0) = 0 := rfl
      rw [hnone, total_cons]
      omega
    | succ i =>
      have hle := ih hrest hi
      rw [List.take_succ_cons, total_cons, total_cons]
      omega

/-- The months lie where the days before them and the days into them lead. -/
theorem findMonth_total_take (month : Int) {lengths : List Int}
    (h : ∀ length ∈ lengths, 0 ≤ length) {i : Nat} {length place : Int}
    (hi : lengths[i]? = some length) (hlow : 0 ≤ place) (hhigh : place < length) :
    findMonth month lengths (total (lengths.take i) + place) = (month + i, place + 1) := by
  induction lengths generalizing i month with
  | nil => simp at hi
  | cons first rest ih =>
    obtain ⟨hfirst, hrest⟩ := List.forall_mem_cons.mp h
    cases i with
    | zero =>
      obtain rfl : first = length := by simpa using hi
      have hnone : total ((first :: rest).take 0) = 0 := rfl
      rw [hnone, findMonth, if_pos (by omega)]
      simp
    | succ i =>
      have hbefore := (total_take_add_le hrest hi).1
      rw [List.take_succ_cons, total_cons, findMonth, if_neg (by omega),
        show first + total (rest.take i) + place - first = total (rest.take i) + place by omega,
        ih (month + 1) hrest hi]
      simp only [Prod.mk.injEq, and_true]
      omega

/-- A day that is given by its month is supported. -/
theorem ofDate?_supported {y m place : Int} {d : Day} (h : ofDate? y m place = some d) :
    d.isSupported = true := by
  unfold ofDate? at h
  simp only at h
  split at h
  · cases h
  · rename_i length hlength
    split at h
    case isTrue hchecks =>
      cases h
      simp only [Bool.and_eq_true, decide_eq_true_eq] at hchecks
      obtain ⟨hlow, hhigh⟩ := total_take_add_le (monthLengths_nonneg _) hlength
      rw [total_monthLengths] at hhigh
      unfold total at hlow hhigh
      exact ofYearOffset_supported hchecks.1.1.1 (by omega) (by omega)
    case isFalse => cases h

/-- A day is found by its month and its place in it. -/
theorem ofDate?_monthAndDay {d : Day} (h : d.isSupported = true) :
    ofDate? d.year d.month d.dayOfMonth = some d := by
  obtain ⟨heq, hlow, hhigh⟩ := d.yearAndOffset_spec
  rw [← total_monthLengths] at hhigh
  obtain ⟨i, length, hlength, hfind, hle, hlt⟩ := findMonth_spec 1 hlow hhigh
  have hmonth : d.month = 1 + i := congrArg Prod.fst hfind
  have hplace : d.dayOfMonth = d.yearAndOffset.2 - total _ + 1 := congrArg Prod.snd hfind
  rw [isSupported_iff] at h
  rw [hmonth, hplace, ofDate?]
  simp only [Int.add_sub_cancel, Int.add_comm 1, Int.toNat_natCast, hlength]
  rw [if_pos, Option.some.injEq]
  · refine Eq.trans ?_ heq
    simp only [ofYearOffset, Day.mk.injEq]
    unfold total
    omega
  · simp only [h, Bool.true_and, Bool.and_eq_true, decide_eq_true_eq]
    omega

/-- The month of a day is one of the year, and its place in it lies in the month. -/
theorem exists_monthLength (d : Day) : ∃ (i : Nat) (length : Int),
    (monthLengths (isLeapYear d.year))[i]? = some length ∧ d.month = 1 + i
      ∧ 1 ≤ d.dayOfMonth ∧ d.dayOfMonth ≤ length := by
  obtain ⟨-, hlow, hhigh⟩ := d.yearAndOffset_spec
  rw [← total_monthLengths] at hhigh
  obtain ⟨i, length, hlength, hfind, hle, hlt⟩ := findMonth_spec 1 hlow hhigh
  have hplace : d.dayOfMonth = d.yearAndOffset.2 - total _ + 1 := congrArg Prod.snd hfind
  exact ⟨i, length, hlength, congrArg Prod.fst hfind, by omega, by omega⟩

theorem month_bounds (d : Day) : 1 ≤ d.month ∧ d.month ≤ 12 := by
  obtain ⟨i, length, hlength, hmonth, -⟩ := d.exists_monthLength
  have hi : i < 12 := (List.getElem?_eq_some_iff.mp hlength).1
  omega

theorem dayOfMonth_bounds (d : Day) : 1 ≤ d.dayOfMonth ∧ d.dayOfMonth ≤ 31 := by
  obtain ⟨i, length, hlength, -, hlow, hhigh⟩ := d.exists_monthLength
  have hmax : ∀ leap, ∀ length ∈ monthLengths leap, length ≤ 31 := by decide
  have := hmax _ length (List.mem_of_getElem? hlength)
  omega

theorem monthLengths_mono {leap leap' : Bool} (hleap : leap = true → leap' = true) {i : Nat}
    {length : Int} (h : (monthLengths leap)[i]? = some length) :
    ∃ length', (monthLengths leap')[i]? = some length' ∧ length ≤ length' := by
  cases leap with
  | true => exact ⟨length, hleap rfl ▸ h, Int.le_refl _⟩
  | false =>
    cases leap' with
    | false => exact ⟨length, h, Int.le_refl _⟩
    | true =>
      match i, h with
      | 1, h => exact ⟨29, rfl, by cases h; decide⟩
      | 0, h | _ + 2, h => exact ⟨length, h, Int.le_refl _⟩

/-- In a year that has the day at all, month and place in it make up a day again. -/
theorem exists_ofDate? (d : Day) {y : Int} (hy : supportsYear y = true)
    (hleap : isLeapYear d.year = true → isLeapYear y = true) :
    ∃ e, ofDate? y d.month d.dayOfMonth = some e ∧ e.year = y ∧ e.month = d.month
      ∧ e.dayOfMonth = d.dayOfMonth := by
  obtain ⟨i, length, hlength, hmonth, hlow, hhigh⟩ := d.exists_monthLength
  obtain ⟨length', hlength', hle⟩ := monthLengths_mono hleap hlength
  have hinside := total_take_add_le (monthLengths_nonneg _) hlength'
  rw [total_monthLengths] at hinside
  have hparts := @yearAndOffset_ofYearOffset y
    (total ((monthLengths (isLeapYear y)).take i) + (d.dayOfMonth - 1)) (by omega) (by omega)
  have hfind := findMonth_total_take 1 (monthLengths_nonneg (isLeapYear y)) hlength'
    (show 0 ≤ d.dayOfMonth - 1 by omega) (by omega)
  generalize hoffset : total ((monthLengths (isLeapYear y)).take i) + (d.dayOfMonth - 1) = offset
    at hparts hfind
  have hsame : (ofYearOffset y offset).monthAndDay = (1 + (i : Int), d.dayOfMonth - 1 + 1) := by
    rw [monthAndDay, year, hparts, hfind]
  refine ⟨ofYearOffset y offset, ?_, congrArg Prod.fst hparts, ?_, ?_⟩
  · have hbefore : (1 + (i : Int) - 1).toNat = i := by omega
    rw [ofDate?, hmonth]
    simp only [hbefore, hlength']
    rw [if_pos]
    · rw [← hoffset]
      rfl
    · simp only [hy, Bool.true_and, Bool.and_eq_true, decide_eq_true_eq]
      omega
  · rw [month, hsame, hmonth]
  · rw [dayOfMonth, hsame]
    exact Int.sub_add_cancel _ _

theorem dayOfYear_bounds (d : Day) : 1 ≤ d.dayOfYear ∧ d.dayOfYear ≤ 366 := by
  obtain ⟨-, hlow, hhigh⟩ := d.yearAndOffset_spec
  rw [daysInYear] at hhigh
  rw [dayOfYear]
  split at hhigh <;> omega

theorem ofDayOfYear?_supported {y place : Int} {d : Day} (h : ofDayOfYear? y place = some d) :
    d.isSupported = true := by
  unfold ofDayOfYear? at h
  split at h
  case isTrue hchecks =>
    cases h
    simp only [Bool.and_eq_true, decide_eq_true_eq] at hchecks
    exact ofYearOffset_supported hchecks.1.1 (by omega) (by omega)
  case isFalse => cases h

/-- A day is found by its place in its year. -/
theorem ofDayOfYear?_dayOfYear {d : Day} (h : d.isSupported = true) :
    ofDayOfYear? d.year d.dayOfYear = some d := by
  obtain ⟨heq, hlow, hhigh⟩ := d.yearAndOffset_spec
  rw [isSupported_iff] at h
  rw [ofDayOfYear?, dayOfYear, if_pos, Int.add_sub_cancel, heq]
  simp only [h, Bool.true_and, Bool.and_eq_true, decide_eq_true_eq]
  omega

/-! ## Weeks -/

/-- A day is found by its weekday and its week, weeks starting on any weekday. -/
theorem ofWeekFrom?_weekFrom {d : Day} (h : d.isSupported = true) (start : Int) :
    ofWeekFrom? d.year (d.weekFrom start) d.weekday start = some d := by
  rw [← ofDayOfYear?_dayOfYear h, ofWeekFrom?]
  congr 1
  have hlow := d.yearAndOffset_spec.2.1
  have hnumber := d.number_eq
  simp only [weekFrom, dayOfYear, daysSince, weekday, ofYearOffset]
  omega

theorem ofWeekFrom?_supported {y w place start : Int} {d : Day}
    (h : ofWeekFrom? y w place start = some d) : d.isSupported = true :=
  ofDayOfYear?_supported h

/-- A day is found by its weekday and the week that counts towards the year of its Thursday. -/
theorem ofWeek?_week {d : Day} (h : d.isSupported = true) :
    ofWeek? d.weekYear d.week d.weekday = some d := by
  have hlow := d.thursday.yearAndOffset_spec.2.1
  have hnumber := d.thursday.number_eq
  rw [← weekYear] at hnumber
  -- the Thursday lies as far behind the first one as its week behind the first week
  have hsame : (ofYearOffset d.weekYear 3).number - (ofYearOffset d.weekYear 3).weekday
      + (d.week - 1) * 7 + d.weekday = d.number := by
    simp only [ofYearOffset, weekday, week, thursday] at *
    omega
  rw [ofWeek?]
  simp only [hsame]
  rw [if_pos]
  simp only [h, Bool.and_true, decide_eq_true_eq, beq_self_eq_true]
  rw [week]
  omega

theorem ofWeek?_supported {y w place : Int} {d : Day} (h : ofWeek? y w place = some d) :
    d.isSupported = true := by
  unfold ofWeek? at h
  simp only at h
  split at h
  case isTrue hchecks =>
    cases h
    rw [Bool.and_eq_true] at hchecks
    exact hchecks.2
  case isFalse => cases h

theorem weekday_bounds (d : Day) : 0 ≤ d.weekday ∧ d.weekday ≤ 6 := by
  rw [weekday]
  omega

theorem weekFrom_bounds (d : Day) (start : Int) : 0 ≤ d.weekFrom start ∧ d.weekFrom start ≤ 53 := by
  have := d.dayOfYear_bounds
  rw [weekFrom, daysSince]
  omega

theorem week_bounds (d : Day) : 1 ≤ d.week ∧ d.week ≤ 53 := by
  have := d.thursday.dayOfYear_bounds
  rw [dayOfYear] at this
  rw [week]
  omega

end HttpContract.Calendar.Day
