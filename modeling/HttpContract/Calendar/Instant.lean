import HttpContract.Calendar.Day

/-!
# Calendar.Instant — points in time

An instant is a number of seconds from the start of 1970 and a number of nanoseconds. A leap second
is told by more than a thousand million nanoseconds: it prolongs the second before it, so that
instants are ordered by seconds and then by nanoseconds. Instants lie in the supported years; moving
one beyond them fails.
-/

namespace HttpContract.Calendar

/-- A point in time. -/
structure Instant where
  seconds : Int
  nanoseconds : Nat
deriving DecidableEq

namespace Instant

/-- The nanoseconds of a second. -/
def perSecond : Nat := 1000000000

/-- The seconds of a day. -/
def perDay : Int := 86400

/-- The day of an instant. -/
def day (t : Instant) : Day := ⟨t.seconds / perDay⟩

/-- The seconds since the start of the day. -/
def secondOfDay (t : Instant) : Int := t.seconds % perDay

/-- Whether the instant is in a leap second. -/
def isLeap (t : Instant) : Bool := perSecond ≤ t.nanoseconds

/-- The start of a day. -/
def startOf (d : Day) : Instant := ⟨d.number * perDay, 0⟩

/-! ## Order -/

/-- Whether an instant is not after another. -/
def atMost (s t : Instant) : Bool :=
  s.seconds < t.seconds || (s.seconds == t.seconds && s.nanoseconds ≤ t.nanoseconds)

/-- The later of two instants. -/
def latest (s t : Instant) : Instant := if s.atMost t then t else s

/-- The earlier of two instants. -/
def earliest (s t : Instant) : Instant := if s.atMost t then s else t

/-! ## Moving -/

/-- The instant itself, if its day is supported. -/
def supported? (t : Instant) : Option Instant := if t.day.isSupported then some t else none

/-- Brings nanoseconds beyond a second into the seconds. -/
def carry (seconds : Int) (nanoseconds : Nat) : Instant :=
  if perSecond ≤ nanoseconds then ⟨seconds + 1, nanoseconds - perSecond⟩ else ⟨seconds, nanoseconds⟩

/-- An instant moved by seconds and, forwards, by less than a second. A move that leaves a leap
second counts from the second that it prolongs, backwards from the one after that. -/
def move (t : Instant) (seconds : Int) (nanoseconds : Nat) : Instant :=
  if t.isLeap then
    if 0 < seconds ∨ 2 * perSecond ≤ t.nanoseconds + nanoseconds then
      carry (t.seconds + seconds) (t.nanoseconds - perSecond + nanoseconds)
    else if seconds < 0 then
      carry (t.seconds + 1 + seconds) (t.nanoseconds - perSecond + nanoseconds)
    else ⟨t.seconds, t.nanoseconds + nanoseconds⟩
  else carry (t.seconds + seconds) (t.nanoseconds + nanoseconds)

/-- An instant moved by seconds. -/
def addSeconds? (t : Instant) (seconds : Int) : Option Instant := (t.move seconds 0).supported?

/-- An instant moved by days. -/
def addDays? (t : Instant) (days : Int) : Option Instant := t.addSeconds? (days * perDay)

/-- An instant moved forwards by milliseconds. -/
def addMilliseconds? (t : Instant) (n : Nat) : Option Instant :=
  (t.move (n / 1000 : Nat) (n % 1000 * 1000000)).supported?

/-- The nanoseconds from one instant to another. Within a day a leap second counts. -/
def nanosecondsSince (t s : Instant) : Int :=
  let extra : Int :=
    if s.secondOfDay < t.secondOfDay && s.isLeap then 1
    else if t.secondOfDay < s.secondOfDay && t.isLeap then -1
    else 0
  (t.seconds - s.seconds + extra) * perSecond + ((t.nanoseconds : Int) - s.nanoseconds)

/-- The whole milliseconds from one instant to another, the rest being cut off. -/
def millisecondsSince (t s : Instant) : Int := (t.nanosecondsSince s).tdiv 1000000

end Instant

end HttpContract.Calendar
