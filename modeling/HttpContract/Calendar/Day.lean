/-!
# Calendar.Day — days of the Gregorian calendar

A day is the number of days from 1 January 1970 to it. Its year, month, week and weekday are read
off this number, and the constructors go from these back to the number. The calendar is carried on
without end in both directions; constructors give only days of the supported years.
-/

namespace HttpContract.Calendar

/-- A day, as the number of days from 1 January 1970 to it. -/
structure Day where
  number : Int
deriving DecidableEq

namespace Day

/-! ## Years -/

/-- Whether a year has 366 days. -/
def isLeapYear (year : Int) : Bool := year % 4 == 0 && (year % 100 != 0 || year % 400 == 0)

/-- The number of days of a year. -/
def daysInYear (year : Int) : Int := if isLeapYear year then 366 else 365

/-- The days from 1 January of year 1 to 1 January of a year. -/
def daysBefore (year : Int) : Int :=
  (year - 1) * 365 + (year - 1) / 4 - (year - 1) / 100 + (year - 1) / 400

/-- The days from 1 January of year 1 to 1 January 1970. -/
def epoch : Int := 719162

/-- The first supported year. -/
def firstYear : Int := -262143

/-- The last supported year. -/
def lastYear : Int := 262142

/-- Whether a year is supported. -/
def supportsYear (year : Int) : Bool := firstYear ≤ year && year ≤ lastYear

/-- The day that lies some days after 1 January of a year. -/
def ofYearOffset (year offset : Int) : Day := ⟨daysBefore year - epoch + offset⟩

/-- Whether a day lies in a supported year. -/
def isSupported (d : Day) : Bool :=
  (ofYearOffset firstYear 0).number ≤ d.number && d.number < (ofYearOffset (lastYear + 1) 0).number

/-- The year of a day and the days of that year before it. The four hundred years of a cycle are
three centuries of 36524 days and a longer one; the same goes on inside a century, with groups of
four years, and inside such a group. -/
def yearAndOffset (d : Day) : Int × Int :=
  let days := d.number + epoch
  let inCycle := days % 146097
  let century := min 3 (inCycle / 36524)
  let inCentury := inCycle - century * 36524
  let group := inCentury / 1461
  let inGroup := inCentury - group * 1461
  let single := min 3 (inGroup / 365)
  (days / 146097 * 400 + century * 100 + group * 4 + single + 1, inGroup - single * 365)

/-- The year of a day. -/
def year (d : Day) : Int := d.yearAndOffset.1

/-- The place of a day in its year, from one. -/
def dayOfYear (d : Day) : Int := d.yearAndOffset.2 + 1

/-! ## Months -/

/-- The lengths of the months of a year. -/
def monthLengths (leap : Bool) : List Int :=
  [31, if leap then 29 else 28, 31, 30, 31, 30, 31, 31, 30, 31, 30, 31]

/-- The month, counted on from `month`, and the day of the month that lie some days into months of
the given lengths. -/
def findMonth (month : Int) : List Int → Int → Int × Int
  | [], offset => (month, offset + 1)
  | length :: rest, offset =>
    if offset < length then (month, offset + 1) else findMonth (month + 1) rest (offset - length)

/-- The month of a day and the day's place in it, both from one. -/
def monthAndDay (d : Day) : Int × Int :=
  findMonth 1 (monthLengths (isLeapYear d.year)) d.yearAndOffset.2

/-- The month of a day, from one. -/
def month (d : Day) : Int := d.monthAndDay.1

/-- The place of a day in its month, from one. -/
def dayOfMonth (d : Day) : Int := d.monthAndDay.2

/-- The quarter of a day's year, from one. -/
def quarter (d : Day) : Int := (d.month - 1) / 3 + 1

/-! ## Weeks -/

/-- The weekday of a day; Monday is zero. -/
def weekday (d : Day) : Int := (d.number + epoch) % 7

/-- The days since the last given weekday. -/
def daysSince (d : Day) (start : Int) : Int := (d.weekday - start) % 7

/-- The number of the week in the year, weeks starting on a weekday; the days before the first such
weekday are in week zero. -/
def weekFrom (d : Day) (start : Int) : Int := (d.dayOfYear + 6 - d.daysSince start) / 7

/-- The Thursday of the week of a day, weeks starting on Monday. A week counts towards the year of
its Thursday. -/
def thursday (d : Day) : Day := ⟨d.number - d.weekday + 3⟩

/-- The year that a day's week counts towards. -/
def weekYear (d : Day) : Int := d.thursday.year

/-- The number of a day's week in the year that it counts towards, from one. -/
def week (d : Day) : Int := d.thursday.yearAndOffset.2 / 7 + 1

/-! ## Constructors -/

/-- The given day of a year. -/
def ofDayOfYear? (year dayOfYear : Int) : Option Day :=
  if supportsYear year && 1 ≤ dayOfYear && dayOfYear ≤ daysInYear year then
    some (ofYearOffset year (dayOfYear - 1))
  else none

/-- The given day of a month of a year. -/
def ofDate? (year month day : Int) : Option Day :=
  let lengths := monthLengths (isLeapYear year)
  let before := (month - 1).toNat
  match lengths[before]? with
  | none => none
  | some length =>
    if supportsYear year && 1 ≤ month && 1 ≤ day && day ≤ length then
      some (ofYearOffset year ((lengths.take before).foldr (· + ·) 0 + (day - 1)))
    else none

/-- The given weekday of a week of a year, weeks counting towards the year of their Thursday. -/
def ofWeek? (year week weekday : Int) : Option Day :=
  let fourth := ofYearOffset year 3
  let d : Day := ⟨fourth.number - fourth.weekday + (week - 1) * 7 + weekday⟩
  if 1 ≤ week && d.weekYear == year && d.isSupported then some d else none

/-- The given weekday of a week of a year, weeks starting on the weekday `start` and the days before
the first such weekday being in week zero. -/
def ofWeekFrom? (year week weekday start : Int) : Option Day :=
  let first := ofYearOffset year 0
  let dayOfYear := 1 + (start - first.weekday) % 7 + (week - 1) * 7 + (weekday - start) % 7
  ofDayOfYear? year dayOfYear

end Day

end HttpContract.Calendar
