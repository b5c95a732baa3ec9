import HttpContract.Calendar.Moment
import HttpContract.Calendar.Read
import HttpContract.Constraint.Error

/-!
# Constraint.Date — dates in a format and a range

A date is a text that can be read in a format, or as ISO 8601 without one, and whose instant lies
between two others. Generated dates are drawn from a window of time, written and read again; a
coarse format may move the instant out of its range, so that several are tried.
-/

namespace HttpContract.Constraint

open Calendar (Instant Item)

/-- Where generated dates lie: near the present, before it, after it or between two instants. -/
inductive Period where
  | recent
  | past
  | future
  | between
deriving DecidableEq

namespace Period

/-- The name of a period. -/
def name : Period → String
  | recent => "recent"
  | past => "past"
  | future => "future"
  | between => "between"

/-- The period with a name. -/
def ofName? : String → Option Period
  | "recent" => some recent
  | "past" => some past
  | "future" => some future
  | "between" => some between
  | _ => none

end Period

/-- A date format as it is written and its items. -/
structure DateFormat where
  text : String
  items : List Item
deriving DecidableEq

/-- The directives of a format. -/
def DateFormat.directives (f : DateFormat) : String :=
  String.ofList (Calendar.Moment.directives f.text.toList)

/-- An end of a range as it is written and its instant. -/
structure DateBound where
  text : String
  instant : Instant
deriving DecidableEq

/-- A condition on dates. -/
structure DateRule where
  format : Option DateFormat
  period : Option Period
  earliest : Option DateBound
  latest : Option DateBound
deriving DecidableEq

/-- Why there is no such condition on dates. -/
inductive DateFault where
  | format (text : String)
  | unreadable (option text : String)
  | openBetween
  | reversed (earliest latest : Instant)

/-- The text of an error. -/
def DateFault.message : DateFault → String
  | format text => "invalid date format " ++ Text.quoted text
  | unreadable option text => "unparsable `" ++ option ++ "` date " ++ Text.quoted text
  | openBetween => "date type \"between\" requires both `from` and `to`"
  | reversed earliest latest =>
    "date `from` " ++ earliest.plainText ++ " is after `to` " ++ latest.plainText

namespace DateRule

/-! ## Construction -/

/-- The format that a text means. -/
def readFormat (text : String) : Except DateFault DateFormat :=
  match Item.ofFormat? (Calendar.Moment.directives text.toList) with
  | some items => .ok ⟨text, items⟩
  | none => .error (.format text)

/-- Reads an end of a range, as ISO 8601 or in the format. -/
def readBound (format : Option DateFormat) (option text : String) :
    Except DateFault DateBound :=
  let cs := text.toList
  let formatted := format.bind fun f => Calendar.Read.formatted? f.items cs
  match Calendar.Read.iso? cs <|> formatted with
  | some t => .ok ⟨text, t⟩
  | none => .error (.unreadable option text)

/-- Checks that an operation on an optional value succeeds. -/
def readOptional {α β ε : Type} (read : α → Except ε β) : Option α → Except ε (Option β)
  | none => .ok none
  | some x => (read x).map some

/-- The condition with the given options. -/
def ofOptions (format : Option String) (period : Option Period) (earliest latest : Option String) :
    Except DateFault DateRule := do
  let format ← readOptional readFormat format
  let earliest ← readOptional (readBound format "from") earliest
  let latest ← readOptional (readBound format "to") latest
  if period = some .between ∧ (earliest.isNone ∨ latest.isNone) then throw .openBetween
  match earliest, latest with
  | some lo, some hi =>
    if hi.instant.atMost lo.instant && hi.instant != lo.instant then
      throw (.reversed lo.instant hi.instant)
    else return ⟨format, period, earliest, latest⟩
  | _, _ => return ⟨format, period, earliest, latest⟩

/-- A text as the value of an option, if it is given. -/
def option (name : String) (text : Option String) : List (String × Json) :=
  match text with
  | none => []
  | some s => [(name, .string s)]

/-- The options of a condition. -/
def options (r : DateRule) : Json :=
  .object (option "format" (r.format.map (·.text)) ++ option "type" (r.period.map Period.name)
    ++ option "from" (r.earliest.map (·.text)) ++ option "to" (r.latest.map (·.text)))

/-! ## Accepting -/

/-- Reads a date. -/
def read? (r : DateRule) (s : String) : Option Instant :=
  match r.format with
  | some f => Calendar.Read.formatted? f.items s.toList
  | none => Calendar.Read.iso? s.toList

/-- Whether an instant lies in the range. -/
def contains (r : DateRule) (t : Instant) : Bool :=
  (match r.earliest with
    | some lo => lo.instant.atMost t
    | none => true) &&
  (match r.latest with
    | some hi => t.atMost hi.instant
    | none => true)

/-- Whether a text is a date in the range. -/
def acceptsText (r : DateRule) (s : String) : Bool :=
  match r.read? s with
  | some t => r.contains t
  | none => false

/-- Whether a value is a date in the range. -/
def accepts (r : DateRule) (v : Json) : Bool :=
  match v.stringForm with
  | some s => r.acceptsText s
  | none => false

/-! ## Generating -/

/-- Writes a date. -/
def write (r : DateRule) (t : Instant) : Except Error String :=
  match r.format with
  | none => .ok t.timestampText
  | some f =>
    match t.render? f.items with
    | some cs => .ok (String.ofList cs)
    | none => .error (.notRenderable f.directives)

/-- The days of a long window. -/
def longWindow : Int := 365

/-- The period of a condition: limits without a period mean the time between them. -/
def effectivePeriod (r : DateRule) : Period :=
  match r.period with
  | some period => period
  | none => if r.earliest.isSome || r.latest.isSome then .between else .recent

/-- The window of a period, seen from the present, before the limits cut it, or none if it leaves
the calendar. -/
def openWindow? (r : DateRule) (now : Instant) : Option (Instant × Instant) :=
  match r.effectivePeriod with
  | .recent => do return (← now.addDays? (-1), now)
  | .past => do return (← now.addDays? (-longWindow), ← now.addSeconds? (-1))
  | .future => do return (← now.addSeconds? 1, ← now.addDays? longWindow)
  | .between =>
    match r.earliest, r.latest with
    | some lo, some hi => some (lo.instant, hi.instant)
    | some lo, none => do return (lo.instant, ← lo.instant.addDays? longWindow)
    | none, some hi => do return (← hi.instant.addDays? (-longWindow), hi.instant)
    | none, none => some (now, now)

/-- The window that dates are drawn from. -/
def window? (r : DateRule) (now : Instant) : Option (Instant × Instant) := do
  let (lo, hi) ← r.openWindow? now
  let lo := match r.earliest with
    | some bound => Instant.latest lo bound.instant
    | none => lo
  let hi := match r.latest with
    | some bound => Instant.earliest hi bound.instant
    | none => hi
  return (lo, hi)

/-- Draws dates from a window until one is in the range, at most `attempts` times. Around a leap
second the clock may count back from the start of the window to its end: then there is nothing to
draw from. -/
def drawWithin (r : DateRule) (lo hi : Instant) : Nat → Generator Json
  | 0 => Attempt.fail .noDateWithin
  | attempts + 1 => do
    let offset ← Attempt.between 0 (hi.millisecondsSince lo)
    match lo.addMilliseconds? offset.toNat with
    | none => Attempt.breakOff
    | some t =>
      match r.write t with
      | .error e => Attempt.fail e
      | .ok s => if r.acceptsText s then return .string s else drawWithin r lo hi attempts

/-- Draws a date. -/
def draw (r : DateRule) (now : Instant) : Generator Json :=
  match r.window? now with
  | none => Attempt.breakOff
  | some (lo, hi) =>
    if lo.atMost hi then r.drawWithin lo hi Error.attempts
    else Attempt.fail (.emptyWindow lo hi)

end DateRule

end HttpContract.Constraint
