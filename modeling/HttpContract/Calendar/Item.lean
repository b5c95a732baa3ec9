import HttpContract.Unicode.Derived

/-!
# Calendar.Item — the items of a date format

A date format is a list of items: characters that stand for themselves and directives. In the text
of a format a directive starts with a percent sign; some stand for several items. A sign after the
percent sign changes how a number is padded, and only single numbers can be padded.
-/

namespace HttpContract.Calendar

/-- What a number is padded with. -/
inductive Padding where
  | none
  | zeros
  | spaces
deriving DecidableEq

/-- The numbers of an instant. -/
inductive NumberField where
  | year
  | century
  | yearOfCentury
  | weekYear
  | weekYearOfCentury
  | quarter
  | month
  | day
  | weekFromSunday
  | weekFromMonday
  | week
  | weekdayFromSunday
  | weekdayFromMonday
  | dayOfYear
  | hour
  | clockHour
  | minute
  | second
  | nanosecond
  | timestamp
deriving DecidableEq

/-- The ways to write the distance to universal time. -/
inductive OffsetStyle where
  | plain
  | colon
  | seconds
  | hours
  | anyLength
deriving DecidableEq

/-- An item of a date format. -/
inductive Item where
  | literal (c : Char)
  | blank (c : Char)
  | number (field : NumberField) (padding : Padding)
  | monthName (long : Bool)
  | weekdayName (long : Bool)
  | halfDay (upper : Bool)
  | fraction (digits : Option Nat)
  | fractionDigits (digits : Nat)
  | zoneName
  | offset (style : OffsetStyle)
  | timestampText
deriving DecidableEq

namespace Item

/-! ## Directives -/

/-- The number that a letter stands for, and its padding. -/
def numberOf? : Char → Option (NumberField × Padding)
  | 'Y' => some (.year, .zeros)
  | 'C' => some (.century, .zeros)
  | 'y' => some (.yearOfCentury, .zeros)
  | 'G' => some (.weekYear, .zeros)
  | 'g' => some (.weekYearOfCentury, .zeros)
  | 'q' => some (.quarter, .none)
  | 'm' => some (.month, .zeros)
  | 'd' => some (.day, .zeros)
  | 'e' => some (.day, .spaces)
  | 'U' => some (.weekFromSunday, .zeros)
  | 'W' => some (.weekFromMonday, .zeros)
  | 'V' => some (.week, .zeros)
  | 'w' => some (.weekdayFromSunday, .none)
  | 'u' => some (.weekdayFromMonday, .none)
  | 'j' => some (.dayOfYear, .zeros)
  | 'H' => some (.hour, .zeros)
  | 'k' => some (.hour, .spaces)
  | 'I' => some (.clockHour, .zeros)
  | 'l' => some (.clockHour, .spaces)
  | 'M' => some (.minute, .zeros)
  | 'S' => some (.second, .zeros)
  | 'f' => some (.nanosecond, .zeros)
  | 's' => some (.timestamp, .none)
  | _ => none

/-- A number padded with zeros. -/
def padded (field : NumberField) : Item := .number field .zeros

/-- Hours and minutes. -/
def hourAndMinute : List Item := [padded .hour, .literal ':', padded .minute]

/-- Hours, minutes and seconds. -/
def timeOfDay : List Item := hourAndMinute ++ [.literal ':', padded .second]

/-- Year, month and day. -/
def date : List Item :=
  [padded .year, .literal '-', padded .month, .literal '-', padded .day]

/-- Month, day and the year of the century. -/
def shortDate : List Item :=
  [padded .month, .literal '/', padded .day, .literal '/', padded .yearOfCentury]

/-- The items that a letter stands for which is no number. -/
def itemsOf? : Char → Option (List Item)
  | 'A' => some [.weekdayName true]
  | 'a' => some [.weekdayName false]
  | 'B' => some [.monthName true]
  | 'b' => some [.monthName false]
  | 'h' => some [.monthName false]
  | 'P' => some [.halfDay false]
  | 'p' => some [.halfDay true]
  | 'Z' => some [.zoneName]
  | 'z' => some [.offset .plain]
  | '+' => some [.timestampText]
  | '%' => some [.literal '%']
  | 'n' => some [.blank '\n']
  | 't' => some [.blank '\t']
  | 'F' => some date
  | 'D' => some shortDate
  | 'x' => some shortDate
  | 'R' => some hourAndMinute
  | 'T' => some timeOfDay
  | 'X' => some timeOfDay
  | 'r' => some ([padded .clockHour, .literal ':', padded .minute, .literal ':', padded .second]
      ++ [.blank ' ', .halfDay true])
  | 'v' => some [.number .day .spaces, .literal '-', .monthName false, .literal '-', padded .year]
  | 'c' => some ([.weekdayName false, .blank ' ', .monthName false, .blank ' ',
      .number .day .spaces, .blank ' '] ++ timeOfDay ++ [.blank ' ', padded .year])
  | _ => none

/-- The padding that a sign asks for. -/
def paddingOf? : Char → Option Padding
  | '-' => some .none
  | '0' => some .zeros
  | '_' => some .spaces
  | _ => none

/-- The number of digits that a digit before `f` asks for. -/
def fractionLength? : Char → Option Nat
  | '3' => some 3
  | '6' => some 6
  | '9' => some 9
  | _ => none

/-- Reads a directive behind its percent sign. -/
def readDirective : List Char → Option (List Item × List Char)
  | [] => none
  | '.' :: rest =>
    match rest with
    | 'f' :: rest => some ([.fraction none], rest)
    | c :: 'f' :: rest => (fractionLength? c).map fun n => ([.fraction (some n)], rest)
    | _ => none
  | ':' :: rest =>
    match rest with
    | 'z' :: rest => some ([.offset .colon], rest)
    | ':' :: 'z' :: rest => some ([.offset .seconds], rest)
    | ':' :: ':' :: 'z' :: rest => some ([.offset .hours], rest)
    | _ => none
  | '#' :: rest =>
    match rest with
    | 'z' :: rest => some ([.offset .anyLength], rest)
    | _ => none
  | c :: rest =>
    match paddingOf? c, rest with
    | some padding, d :: rest => (numberOf? d).map fun n => ([.number n.1 padding], rest)
    | some _, [] => none
    | none, rest =>
      match numberOf? c, itemsOf? c with
      | some n, _ => some ([.number n.1 n.2], rest)
      | none, some items => some (items, rest)
      | none, none =>
        match fractionLength? c, rest with
        | some n, 'f' :: rest => some ([.fractionDigits n], rest)
        | _, _ => none

/-- A character that stands for itself. -/
def ofChar (c : Char) : Item := if Unicode.isWhiteSpace c then .blank c else .literal c

/-- Reads the items of a format. The first argument bounds the number of steps. -/
def readAll : Nat → List Char → Option (List Item)
  | 0, _ => none
  | _ + 1, [] => some []
  | steps + 1, '%' :: rest => do
    let (items, rest) ← readDirective rest
    let more ← readAll steps rest
    some (items ++ more)
  | steps + 1, c :: rest => do
    let more ← readAll steps rest
    some (ofChar c :: more)

/-- The items of the text of a format, unless it holds something that is no directive. -/
def ofFormat? (format : List Char) : Option (List Item) := readAll (format.length + 1) format

end Item

end HttpContract.Calendar
