import HttpContract.Calendar.Fields
import HttpContract.Calendar.Names

/-!
# Calendar.Read — reading the text of an instant

A reader of dates over the list of their characters, one for each item of a format; the parts that
it meets are collected in `Fields`. Without a format the common forms of ISO 8601 are tried one
after the other.
-/

namespace HttpContract.Calendar

namespace Read

/-- Drops white space. -/
def skipBlanks (cs : List Char) : List Char := cs.dropWhile Unicode.isWhiteSpace

/-- The number that decimal digits denote. -/
def valueOf (digits : List Char) : Nat := digits.foldl (fun n d => n * 10 + (d.toNat - 48)) 0

/-- The digits at the start of a text, at most `limit` of them, and the rest. -/
def takeDigits (limit : Nat) (cs : List Char) : List Char × List Char :=
  let digits := (cs.take limit).takeWhile Char.isDigit
  (digits, cs.drop digits.length)

/-- Reads a number of at least one digit and of at most `limit` digits. -/
def number? (limit : Nat) (cs : List Char) : Option (Nat × List Char) :=
  match takeDigits limit cs with
  | ([], _) => none
  | (digits, rest) => some (valueOf digits, rest)

/-- Reads a number of exactly so many digits. -/
def fixed? (count : Nat) (cs : List Char) : Option (Nat × List Char) :=
  match takeDigits count cs with
  | (digits, rest) => if digits.length = count then some (valueOf digits, rest) else none

/-- Reads a year of at most four digits, or one of any length behind a sign. -/
def year? (cs : List Char) : Option (Int × List Char) :=
  match cs with
  | '-' :: rest => (number? rest.length rest).map fun r => (-(r.1 : Int), r.2)
  | '+' :: rest => (number? rest.length rest).map fun r => ((r.1 : Int), r.2)
  | cs => (number? 4 cs).map fun r => ((r.1 : Int), r.2)

/-- The greatest number of digits of a field; a timestamp has no limit. -/
def width? : NumberField → Option Nat
  | .year | .weekYear => some 4
  | .dayOfYear => some 3
  | .quarter | .weekdayFromSunday | .weekdayFromMonday => some 1
  | .nanosecond => some 9
  | .timestamp => none
  | _ => some 2

/-- Reads the number of a field, white space before it being skipped. -/
def field? (field : NumberField) (cs : List Char) : Option (Int × List Char) :=
  let cs := skipBlanks cs
  match field with
  | .year => year? cs
  | .weekYear => year? cs
  | field => (number? ((width? field).getD cs.length) cs).map fun r => ((r.1 : Int), r.2)

/-- Reads the digits of a fraction as nanoseconds; digits beyond the ninth are skipped. -/
def fraction? (cs : List Char) : Option (Int × List Char) :=
  match takeDigits 9 cs with
  | ([], _) => none
  | (digits, rest) =>
    some ((valueOf digits * Nat.pow 10 (9 - digits.length) : Nat), rest.dropWhile Char.isDigit)

/-- Drops the colon between hours and minutes. -/
def dropColon? : List Char → Option (List Char)
  | ':' :: rest => some rest
  | _ => none

/-- Drops colons and white space between hours and minutes. -/
def dropColons? (cs : List Char) : Option (List Char) :=
  some (cs.dropWhile fun c => c = ':' || Unicode.isWhiteSpace c)

/-- Reads the sign of an offset; a true minus sign is one, too. -/
def sign? : List Char → Option (Bool × List Char)
  | '+' :: rest => some (false, rest)
  | '-' :: rest => some (true, rest)
  | '−' :: rest => some (true, rest)
  | _ => none

/-- Reads an offset in hours and minutes, as seconds. Where `allowHours` holds, the minutes may be
left out at the end of the text. -/
def signedOffset? (between : List Char → Option (List Char)) (allowHours : Bool)
    (cs : List Char) : Option (Int × List Char) := do
  let (negative, rest) ← sign? cs
  let (hours, rest) ← fixed? 2 rest
  let rest ← between rest
  let (minutes, rest) ←
    if allowHours && rest.isEmpty then some (0, rest)
    else fixed? 2 rest
  let seconds : Int := hours * 3600 + minutes * 60
  if 59 < minutes then none else some (if negative then -seconds else seconds, rest)

/-- Reads an offset for which the letter Z may stand. -/
def offset? (between : List Char → Option (List Char)) (allowHours : Bool) (cs : List Char) :
    Option (Int × List Char) :=
  match cs with
  | 'Z' :: rest => some (0, rest)
  | 'z' :: rest => some (0, rest)
  | cs => signedOffset? between allowHours cs

/-- Puts a part that was read. -/
def put? (part : Part) (fields : Fields) (r : Option (Int × List Char)) :
    Option (Fields × List Char) := do
  let (value, rest) ← r
  let fields ← fields.put? part value
  some (fields, rest)

/-- Reads a fraction with its point, if there is one. -/
def optionalFraction? (fields : Fields) (cs : List Char) : Option (Fields × List Char) :=
  match cs with
  | '.' :: rest => put? .nanosecond fields (fraction? rest)
  | cs => some (fields, cs)

/-- Reads a fraction of exactly so many digits as nanoseconds. -/
def fixedFraction? (digits : Nat) (cs : List Char) : Option (Int × List Char) :=
  (fixed? digits cs).map fun r => ((r.1 * Nat.pow 10 (9 - digits) : Nat), r.2)

/-- Reads a fraction of exactly so many digits with its point, if there is one. -/
def optionalFixedFraction? (digits : Nat) (fields : Fields) (cs : List Char) :
    Option (Fields × List Char) :=
  match cs with
  | '.' :: rest => put? .nanosecond fields (fixedFraction? digits rest)
  | cs => some (fields, cs)

/-- Reads the mark of the half of a day, in small or capital letters. -/
def halfDay? (cs : List Char) : Option (Int × List Char) :=
  match Names.dropWord? ['a', 'm'] cs, Names.dropWord? ['p', 'm'] cs with
  | some rest, _ => some (0, rest)
  | none, some rest => some (1, rest)
  | none, none => none

/-- Drops the mark between a date and a time. -/
def dropMark? : List Char → Option (List Char)
  | 'T' :: rest => some rest
  | 't' :: rest => some rest
  | ' ' :: rest => some rest
  | _ => none

/-! ## Items -/

/-- Reads an item that is no timestamp. -/
def simpleItem? (fields : Fields) (cs : List Char) : Item → Option (Fields × List Char)
  | .literal c =>
    match cs with
    | d :: rest => if d = c then some (fields, rest) else none
    | [] => none
  | .blank _ => some (fields, skipBlanks cs)
  | .number field _ => do
    let (value, rest) ← field? field cs
    let fields ← fields.putNumber? field value
    some (fields, rest)
  | .monthName long =>
    put? .month fields ((Names.read? long 1 Names.months cs).map fun r => ((r.1 : Int), r.2))
  | .weekdayName long =>
    put? .weekday fields ((Names.read? long 0 Names.weekdays cs).map fun r => ((r.1 : Int), r.2))
  | .halfDay _ => put? .half fields (halfDay? cs)
  | .fraction none => optionalFraction? fields cs
  | .fraction (some digits) => optionalFixedFraction? digits fields cs
  | .fractionDigits digits => put? .nanosecond fields (fixedFraction? digits cs)
  | .zoneName => some (fields, cs.dropWhile fun c => !Unicode.isWhiteSpace c)
  | .offset .anyLength => put? .offset fields (offset? dropColons? true (skipBlanks cs))
  | .offset _ => put? .offset fields (signedOffset? dropColons? false (skipBlanks cs))
  | .timestampText => none

/-- Reads items that are no timestamps one after the other. -/
def simpleItems? : List Item → Fields → List Char → Option (Fields × List Char)
  | [], fields, cs => some (fields, cs)
  | item :: items, fields, cs => do
    let (fields, rest) ← simpleItem? fields cs item
    simpleItems? items fields rest

/-- A date, blanks being allowed around its numbers. -/
def looseDate : List Item :=
  [.number .year .zeros, .blank ' ', .literal '-', .number .month .zeros, .blank ' ', .literal '-',
    .number .day .zeros]

/-- A time, blanks being allowed around its numbers. -/
def looseTime : List Item :=
  [.number .hour .zeros, .blank ' ', .literal ':', .number .minute .zeros, .blank ' ',
    .literal ':', .number .second .zeros, .fraction none, .blank ' ']

/-- Reads a timestamp, blanks being allowed around its numbers; its offset may be written `UTC`. -/
def timestamp? (fields : Fields) (cs : List Char) : Option (Fields × List Char) := do
  let (fields, rest) ← simpleItems? looseDate fields cs
  let rest ← dropMark? rest
  let (fields, rest) ← simpleItems? looseTime fields rest
  match Names.dropWord? ['u', 't', 'c'] rest with
  | some rest => put? .offset fields (some (0, rest))
  | none => put? .offset fields (offset? dropColons? false rest)

/-- Reads an item. -/
def item? (item : Item) (fields : Fields) (cs : List Char) : Option (Fields × List Char) :=
  if item = .timestampText then timestamp? fields cs else simpleItem? fields cs item

/-- Reads items one after the other. -/
def items? : List Item → Fields → List Char → Option (Fields × List Char)
  | [], fields, cs => some (fields, cs)
  | item :: items, fields, cs => do
    let (fields, rest) ← item? item fields cs
    items? items fields rest

/-- The parts that a text gives, if it has the form of the items. -/
def fields? (items : List Item) (cs : List Char) : Option Fields :=
  match items? items Fields.empty cs with
  | some (fields, []) => some fields
  | _ => none

/-! ## ISO 8601 -/

/-- Reads a part of a fixed number of digits and the character behind it. -/
def fixedPart? (field : NumberField) (count : Nat) (behind : List Char → Option (List Char))
    (fields : Fields) (cs : List Char) : Option (Fields × List Char) := do
  let (value, rest) ← fixed? count cs
  let fields ← fields.putNumber? field value
  let rest ← behind rest
  some (fields, rest)

/-- Drops a dash. -/
def dropDash? : List Char → Option (List Char)
  | '-' :: rest => some rest
  | _ => none

/-- Reads the parts of a timestamp in its strict form, all numbers having their full width. -/
def strictTimestamp? (cs : List Char) : Option Fields := do
  let (fields, rest) ← fixedPart? .year 4 dropDash? Fields.empty cs
  let (fields, rest) ← fixedPart? .month 2 dropDash? fields rest
  let (fields, rest) ← fixedPart? .day 2 dropMark? fields rest
  let (fields, rest) ← fixedPart? .hour 2 dropColon? fields rest
  let (fields, rest) ← fixedPart? .minute 2 dropColon? fields rest
  let (fields, rest) ← fixedPart? .second 2 some fields rest
  let (fields, rest) ← optionalFraction? fields rest
  let (fields, rest) ← put? .offset fields (offset? dropColon? false rest)
  if rest.isEmpty then some fields else none

/-- The forms of a date with a time but without an offset. -/
def localForms : List (List Item) :=
  [Item.date ++ .literal 'T' :: Item.timeOfDay ++ [.fraction none],
    Item.date ++ .blank ' ' :: Item.timeOfDay ++ [.fraction none],
    Item.date ++ .literal 'T' :: Item.hourAndMinute]

/-- Reads an instant in one of the forms of ISO 8601. -/
def iso? (cs : List Char) : Option Instant :=
  ((strictTimestamp? cs).bind Fields.zonedInstant?)
    <|> localForms.findSome? (fun items => (fields? items cs).bind fun f => f.localInstant? 0)
    <|> ((fields? Item.date cs).bind Fields.startOfDay?)

/-- Reads an instant that has the form of the items. -/
def formatted? (items : List Item) (cs : List Char) : Option Instant :=
  (fields? items cs).bind Fields.instant?

end Read

end HttpContract.Calendar
