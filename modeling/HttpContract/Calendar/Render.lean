import HttpContract.Calendar.Instant
import HttpContract.Calendar.Item
import HttpContract.Calendar.Names

/-!
# Calendar.Render — the text of an instant

An instant is written in universal time, item by item. One item can only be read and has no text:
the offset of any length.
-/

namespace HttpContract.Calendar

/-! ## Numbers -/

/-- The padding character, if there is one. -/
def Padding.char? : Padding → Option Char
  | .none => .none
  | .zeros => some '0'
  | .spaces => some ' '

/-- A sign and digits brought to a width: zeros go behind the sign, spaces before it. -/
def padTo (width : Nat) (padding : Padding) (sign digits : List Char) : List Char :=
  let missing := width - (sign.length + digits.length)
  match padding with
  | .none => sign ++ digits
  | .zeros => sign ++ List.replicate missing '0' ++ digits
  | .spaces => List.replicate missing ' ' ++ sign ++ digits

/-- The decimal digits of a number. -/
def digitsOf (n : Nat) : List Char := Nat.toDigits 10 n

/-- A number below a hundred in two places. From a hundred on the first place goes on with the
characters behind the digits. -/
def twoPlaces (padding : Padding) (n : Nat) : List Char :=
  let ones := Char.ofNat (48 + n % 10)
  if n / 10 = 0 then
    match padding.char? with
    | some c => [c, ones]
    | none => [ones]
  else [Char.ofNat (48 + n / 10), ones]

/-- A year, in four places and with a sign if it has fewer or more digits than these. -/
def yearText (padding : Padding) (year : Int) : List Char :=
  if 0 ≤ year ∧ year < 10000 then padTo 4 padding [] (digitsOf year.toNat)
  else padTo 5 padding [if year < 0 then '-' else '+'] (digitsOf year.natAbs)

/-- A number in a fixed number of places. -/
def zeroPadded (width n : Nat) : List Char := padTo width .zeros [] (digitsOf n)

namespace Instant

/-- The nanoseconds within the second. -/
def subsecond (t : Instant) : Nat := t.nanoseconds % perSecond

/-- The hour of the day. -/
def hour (t : Instant) : Nat := (t.secondOfDay / 3600).toNat

/-- The minute of the hour. -/
def minute (t : Instant) : Nat := (t.secondOfDay / 60 % 60).toNat

/-- The second of the minute; a leap second is the sixtieth. -/
def second (t : Instant) : Nat := (t.secondOfDay % 60).toNat + t.nanoseconds / perSecond

/-- The hour on a clock of twelve hours. -/
def clockHour (t : Instant) : Nat := if t.hour % 12 = 0 then 12 else t.hour % 12

/-- The text of a number of the instant. -/
def numberText (t : Instant) (padding : Padding) : NumberField → List Char
  | .year => yearText padding t.day.year
  | .century => twoPlaces padding (t.day.year / 100 % 256).toNat
  | .yearOfCentury => twoPlaces padding (t.day.year % 100).toNat
  | .weekYear => yearText padding t.day.weekYear
  | .weekYearOfCentury => twoPlaces padding (t.day.weekYear % 100).toNat
  | .quarter => digitsOf t.day.quarter.toNat
  | .month => twoPlaces padding t.day.month.toNat
  | .day => twoPlaces padding t.day.dayOfMonth.toNat
  | .weekFromSunday => twoPlaces padding (t.day.weekFrom 6).toNat
  | .weekFromMonday => twoPlaces padding (t.day.weekFrom 0).toNat
  | .week => twoPlaces padding t.day.week.toNat
  | .weekdayFromSunday => digitsOf (t.day.daysSince 6).toNat
  | .weekdayFromMonday => digitsOf (t.day.weekday + 1).toNat
  | .dayOfYear => padTo 3 padding [] (digitsOf t.day.dayOfYear.toNat)
  | .hour => twoPlaces padding t.hour
  | .clockHour => twoPlaces padding t.clockHour
  | .minute => twoPlaces padding t.minute
  | .second => twoPlaces padding t.second
  | .nanosecond => padTo 9 padding [] (digitsOf t.subsecond)
  | .timestamp => padTo 9 padding (if t.seconds < 0 then ['-'] else []) (digitsOf t.seconds.natAbs)

/-- The first digits of the fraction of the second. -/
def fractionText (t : Instant) (digits : Nat) : List Char :=
  zeroPadded digits (t.subsecond / Nat.pow 10 (9 - digits))

/-- The fraction of the second with its point, in as many groups of three digits as it needs. -/
def shortFraction (t : Instant) : List Char :=
  if t.subsecond = 0 then []
  else if t.subsecond % 1000000 = 0 then '.' :: t.fractionText 3
  else if t.subsecond % 1000 = 0 then '.' :: t.fractionText 6
  else '.' :: t.fractionText 9

/-- Year, month and day. -/
def dateText (t : Instant) : List Char :=
  yearText .zeros t.day.year ++ '-' :: t.numberText .zeros .month
    ++ '-' :: t.numberText .zeros .day

/-- Hours, minutes and seconds. -/
def timeText (t : Instant) : List Char :=
  t.numberText .zeros .hour ++ ':' :: t.numberText .zeros .minute
    ++ ':' :: t.numberText .zeros .second

/-- The text of an item. -/
def itemText? (t : Instant) : Item → Option (List Char)
  | .literal c => some [c]
  | .blank c => some [c]
  | .number field padding => some (t.numberText padding field)
  | .monthName long =>
    some (((Names.months[(t.day.month - 1).toNat]?).map (Names.form long)).getD [])
  | .weekdayName long =>
    some (((Names.weekdays[t.day.weekday.toNat]?).map (Names.form long)).getD [])
  | .halfDay upper =>
    some (match upper, decide (t.hour < 12) with
      | true, true => ['A', 'M']
      | true, false => ['P', 'M']
      | false, true => ['a', 'm']
      | false, false => ['p', 'm'])
  | .fraction none => some t.shortFraction
  | .fraction (some digits) => some ('.' :: t.fractionText digits)
  | .fractionDigits digits => some (t.fractionText digits)
  | .zoneName => some ['U', 'T', 'C']
  | .offset .plain => some ['+', '0', '0', '0', '0']
  | .offset .colon => some ['+', '0', '0', ':', '0', '0']
  | .offset .seconds => some ['+', '0', '0', ':', '0', '0', ':', '0', '0']
  | .offset .hours => some ['+', '0', '0']
  | .offset .anyLength => none
  | .timestampText =>
    some (t.dateText ++ 'T' :: t.timeText ++ t.shortFraction ++ ['+', '0', '0', ':', '0', '0'])

/-- The text of some items, if each has one. -/
def render? (t : Instant) : List Item → Option (List Char)
  | [] => some []
  | item :: rest => do
    let first ← t.itemText? item
    let more ← t.render? rest
    some (first ++ more)

/-- The text of an instant as a timestamp with milliseconds. -/
def timestampText (t : Instant) : String :=
  String.ofList (t.dateText ++ 'T' :: t.timeText ++ '.' :: t.fractionText 3 ++ ['Z'])

/-- The text of an instant in messages. -/
def plainText (t : Instant) : String :=
  String.ofList (t.dateText ++ ' ' :: t.timeText ++ t.shortFraction)

end Instant

end HttpContract.Calendar
