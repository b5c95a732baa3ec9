import HttpContract.Calendar.Instant
import HttpContract.Calendar.Item

/-!
# Calendar.Fields — what the text of a date says

Reading a date collects statements about its parts. A part may be given more than once, but always
with the same value. `Fields.day` finds the day that the parts determine and checks it against all
of them; the time of day and the instant follow in the same way.
-/

namespace HttpContract.Calendar

/-- A part of a date or time. -/
inductive Part where
  | year
  | century
  | yearOfCentury
  | weekYear
  | weekYearOfCentury
  | quarter
  | month
  | day
  | weekFromSunday
  | weekFromMonday
  | week
  | weekday
  | dayOfYear
  | half
  | hourOfHalf
  | minute
  | second
  | nanosecond
  | timestamp
  | offset
deriving DecidableEq

/-- The values that a part may take: the least and the greatest. -/
def Part.range : Part → Int × Int
  | year => (-2147483648, 2147483647)
  | century => (0, 99)
  | yearOfCentury => (0, 99)
  | weekYear => (-2147483648, 2147483647)
  | weekYearOfCentury => (0, 99)
  | quarter => (1, 4)
  | month => (1, 12)
  | day => (1, 31)
  | weekFromSunday => (0, 53)
  | weekFromMonday => (0, 53)
  | week => (1, 53)
  | weekday => (0, 6)
  | dayOfYear => (1, 366)
  | half => (0, 1)
  | hourOfHalf => (0, 11)
  | minute => (0, 59)
  | second => (0, 60)
  | nanosecond => (0, 999999999)
  | timestamp => (-9223372036854775808, 9223372036854775807)
  | offset => (-2147483648, 2147483647)

/-- The parts of a date that are known. -/
def Fields := Part → Option Int

/-- Why parts determine nothing: some are missing, or they contradict each other. -/
inductive Obstacle where
  | missing
  | contradiction
deriving DecidableEq

namespace Fields

/-- Nothing is known. -/
def empty : Fields := fun _ => none

/-- Adds the value of a part, unless it is out of range or another value is known. -/
def put? (part : Part) (value : Int) (fields : Fields) : Option Fields :=
  if value < part.range.1 ∨ part.range.2 < value then none
  else
    match fields part with
    | some known => if known = value then some fields else none
    | none => some fun p => if p = part then some value else fields p

/-- Adds the number that stands for a field of a format. -/
def putNumber? (field : NumberField) (value : Int) (fields : Fields) : Option Fields :=
  match field with
  | .year => fields.put? .year value
  | .century => fields.put? .century value
  | .yearOfCentury => fields.put? .yearOfCentury value
  | .weekYear => fields.put? .weekYear value
  | .weekYearOfCentury => fields.put? .weekYearOfCentury value
  | .quarter => fields.put? .quarter value
  | .month => fields.put? .month value
  | .day => fields.put? .day value
  | .weekFromSunday => fields.put? .weekFromSunday value
  | .weekFromMonday => fields.put? .weekFromMonday value
  | .week => fields.put? .week value
  | .weekdayFromSunday => if value < 7 then fields.put? .weekday ((value + 6) % 7) else none
  | .weekdayFromMonday => fields.put? .weekday (value - 1)
  | .dayOfYear => fields.put? .dayOfYear value
  | .hour => (fields.put? .half (value / 12)).bind (put? .hourOfHalf (value % 12))
  | .clockHour =>
    if 1 ≤ value ∧ value ≤ 12 then fields.put? .hourOfHalf (value % 12) else none
  | .minute => fields.put? .minute value
  | .second => fields.put? .second value
  | .nanosecond => fields.put? .nanosecond value
  | .timestamp => fields.put? .timestamp value

/-- Whether a part is unknown or has the given value. -/
def admits (fields : Fields) (part : Part) (value : Int) : Bool :=
  match fields part with
  | some known => known == value
  | none => true

/-! ## Days -/

/-- A year that is told by itself, by its century and place in it, or by its last two digits, which
then lie in the years from 1970 on. A year before year 0 has no century. -/
def yearOf (whole hundreds rest : Option Int) : Except Obstacle (Option Int) :=
  match whole, hundreds, rest with
  | y, none, none => .ok y
  | some y, c, r =>
    if y < 0 then .error .contradiction
    else if c.getD (y / 100) = y / 100 ∧ r.getD (y % 100) = y % 100 then .ok (some y)
    else .error .contradiction
  | none, some c, some r => .ok (some (c * 100 + r))
  | none, none, some r => .ok (some (r + if r < 70 then 2000 else 1900))
  | none, some _, none => .error .missing

/-- Whether the parts that tell a year admit it. -/
def admitsYear (fields : Fields) (whole hundreds rest : Part) (y : Int) : Bool :=
  fields.admits whole y &&
    if 0 ≤ y then fields.admits hundreds (y / 100) && fields.admits rest (y % 100)
    else (fields hundreds).isNone && (fields rest).isNone

/-- Whether the year, the month and the day admit a day. -/
def admitsDate (fields : Fields) (d : Day) : Bool :=
  fields.admitsYear .year .century .yearOfCentury d.year && fields.admits .month d.month
    && fields.admits .day d.dayOfMonth

/-- Whether the week and its year admit a day. -/
def admitsWeek (fields : Fields) (d : Day) : Bool :=
  fields.admits .weekYear d.weekYear
    && (if 0 ≤ d.weekYear then fields.admits .weekYearOfCentury (d.weekYear % 100)
      else (fields .weekYearOfCentury).isNone)
    && fields.admits .week d.week && fields.admits .weekday d.weekday

/-- Whether the places in the year admit a day. -/
def admitsPlace (fields : Fields) (d : Day) : Bool :=
  fields.admits .dayOfYear d.dayOfYear && fields.admits .weekFromSunday (d.weekFrom 6)
    && fields.admits .weekFromMonday (d.weekFrom 0)

/-- The parts that can determine a day. -/
inductive DayRoute where
  | inMonth (y m d : Int)
  | inYear (y place : Int)
  | inWeekFrom (y w d start : Int)
  | inWeek (y w d : Int)

/-- The first parts that determine a day. -/
def dayRoute? (fields : Fields) (year? weekYear? : Option Int) : Option DayRoute :=
  let byDate := do some (DayRoute.inMonth (← year?) (← fields .month) (← fields .day))
  let byPlace := do some (DayRoute.inYear (← year?) (← fields .dayOfYear))
  let bySunday := do
    some (DayRoute.inWeekFrom (← year?) (← fields .weekFromSunday) (← fields .weekday) 6)
  let byMonday := do
    some (DayRoute.inWeekFrom (← year?) (← fields .weekFromMonday) (← fields .weekday) 0)
  let byWeek := do some (DayRoute.inWeek (← weekYear?) (← fields .week) (← fields .weekday))
  byDate <|> byPlace <|> bySunday <|> byMonday <|> byWeek

/-- The day that some parts determine. -/
def DayRoute.day? : DayRoute → Option Day
  | inMonth y m d => Day.ofDate? y m d
  | inYear y place => Day.ofDayOfYear? y place
  | inWeekFrom y w d start => Day.ofWeekFrom? y w d start
  | inWeek y w d => Day.ofWeek? y w d

/-- The day that the parts determine. -/
def day (fields : Fields) : Except Obstacle Day := do
  let year? ← yearOf (fields .year) (fields .century) (fields .yearOfCentury)
  let weekYear? ← yearOf (fields .weekYear) none (fields .weekYearOfCentury)
  match fields.dayRoute? year? weekYear? with
  | none => .error .missing
  | some route =>
    match route.day? with
    | none => .error .contradiction
    | some d =>
      if fields.admitsDate d && fields.admitsWeek d && fields.admitsPlace d
          && fields.admits .quarter d.quarter then .ok d
      else .error .contradiction

/-! ## Times -/

/-- The seconds since the start of the day and the nanoseconds. Seconds may be left out, but not
before a fraction. -/
def time (fields : Fields) : Except Obstacle (Int × Nat) :=
  match fields .half, fields .hourOfHalf, fields .minute with
  | some half, some hour, some minute =>
    let start := (half * 12 + hour) * 3600 + minute * 60
    match fields .second, fields .nanosecond with
    | none, none => .ok (start, 0)
    | none, some _ => .error .missing
    | some second, nanosecond =>
      let fraction := (nanosecond.getD 0).toNat
      if second = 60 then .ok (start + 59, Instant.perSecond + fraction)
      else .ok (start + second, fraction)
  | _, _, _ => .error .missing

/-- The instant of a day and a time of day. -/
def combine (d : Day) (time : Int × Nat) : Instant := ⟨d.number * Instant.perDay + time.1, time.2⟩

/-- Whether the timestamp admits an instant; a leap second may count as the next one. -/
def admitsTimestamp (fields : Fields) (t : Instant) (offset : Int) : Bool :=
  match fields .timestamp with
  | none => true
  | some given =>
    given == t.seconds - offset || (t.isLeap && given == t.seconds - offset + 1)

/-- Adds some parts one after the other. -/
def putAll? : List (Part × Int) → Fields → Option Fields
  | [], fields => some fields
  | (part, value) :: rest, fields => (fields.put? part value).bind (putAll? rest)

/-- The parts completed from their timestamp. A leap second is the one before the timestamp or the
one at it. -/
def fromTimestamp? (fields : Fields) (timestamp offset : Int) : Option Fields := do
  let t ← Instant.supported? ⟨timestamp + offset, 0⟩
  let secondOfMinute := t.secondOfDay % 60
  let (t, fields) ←
    if fields .second = some 60 then
      if secondOfMinute = 59 then some (t, fields)
      else if secondOfMinute = 0 then some (⟨t.seconds - 1, 0⟩, fields)
      else none
    else (fields.put? .second secondOfMinute).map fun fields => (t, fields)
  let hour := t.secondOfDay / 3600
  putAll? [(.year, t.day.year), (.dayOfYear, t.day.dayOfYear), (.half, hour / 12),
    (.hourOfHalf, hour % 12), (.minute, t.secondOfDay / 60 % 60)] fields

/-- The instant, in the time of an offset, that the parts determine, if need be through their
timestamp. -/
def localInstant? (fields : Fields) (offset : Int) : Option Instant :=
  match fields.day, fields.time with
  | .ok d, .ok time =>
    let t := combine d time
    if fields.admitsTimestamp t offset then some t else none
  | .error .contradiction, _ => none
  | _, .error .contradiction => none
  | _, _ => do
    let completed ← fields.fromTimestamp? (← fields .timestamp) offset
    match completed.day, completed.time with
    | .ok d, .ok time => some (combine d time)
    | _, _ => none

/-- The instant that parts with an offset determine. A timestamp counts in universal time. -/
def zonedInstant? (fields : Fields) : Option Instant := do
  let offset ← match fields .offset, fields .timestamp with
    | some offset, _ => some offset
    | none, some _ => some 0
    | none, none => none
  let t ← fields.localInstant? offset
  if -Instant.perDay < offset ∧ offset < Instant.perDay then
    Instant.supported? { t with seconds := t.seconds - offset }
  else none

/-- The start of the day that the parts determine. -/
def startOfDay? (fields : Fields) : Option Instant :=
  match fields.day with
  | .ok d => some (Instant.startOf d)
  | .error _ => none

/-- The instant that the parts determine: one with an offset, else one taken to be in universal
time, else the start of a day. -/
def instant? (fields : Fields) : Option Instant :=
  fields.zonedInstant? <|> fields.localInstant? 0 <|> fields.startOfDay?

end Fields

end HttpContract.Calendar
