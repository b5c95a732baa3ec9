/-!
# Calendar.Names — the names of months and weekdays

The English names, long and short. A short name is the first three letters of the long one.
-/

namespace HttpContract.Calendar.Names

/-- The months, January first. -/
def months : List String :=
  ["January", "February", "March", "April", "May", "June", "July", "August", "September",
    "October", "November", "December"]

/-- The weekdays, Monday first. -/
def weekdays : List String :=
  ["Monday", "Tuesday", "Wednesday", "Thursday", "Friday", "Saturday", "Sunday"]

/-- A name, or its first three letters. -/
def form (long : Bool) (name : String) : List Char :=
  if long then name.toList else name.toList.take 3

/-- The small form of an ASCII letter. -/
def lower (c : Char) : Char := if 'A' ≤ c ∧ c ≤ 'Z' then Char.ofNat (c.toNat + 32) else c

/-- Drops a word from the start of a text, whatever the case of its ASCII letters. -/
def dropWord? (word cs : List Char) : Option (List Char) :=
  if (cs.take word.length).map lower = word.map lower then some (cs.drop word.length) else none

/-- Reads one of some names, counted on from `place`: its first three letters and, if long names are
allowed, the rest of it where that follows. -/
def read? (long : Bool) (place : Nat) : List String → List Char → Option (Nat × List Char)
  | [], _ => none
  | name :: names, cs =>
    match dropWord? (form false name) cs with
    | some rest =>
      some (place, if long then (dropWord? (name.toList.drop 3) rest).getD rest else rest)
    | none => read? long (place + 1) names cs

end HttpContract.Calendar.Names
