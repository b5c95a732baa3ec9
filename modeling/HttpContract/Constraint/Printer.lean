import HttpContract.Constraint.Basic
import HttpContract.Json.Printer

/-!
# Constraint — the script of a tree

A tree is written as a script that makes it. Compact scripts have no blanks between members;
laid-out ones put each member of a container on its own line, two spaces further in. The arguments
of calls are always compact, but a two-sided value writes its sides at the level at which it stands.
A value with one fixed side is written as that side.
-/

namespace HttpContract.Constraint

/-- The start of a member's line; compact scripts, which have no level, have none. -/
def lineStart (level : Option Nat) : List Char :=
  match level with
  | none => []
  | some n => Json.newLine n

/-- The level of the members of a container. -/
def inside (level : Option Nat) : Option Nat := level.map (· + 1)

/-- A key with its colon. -/
def keyChars (level : Option Nat) (key : String) : List Char :=
  Json.quotedChars key ++ ':' :: (if level.isSome then [' '] else [])

/-- A value at a level, or a compact one. -/
def jsonChars (level : Option Nat) (v : Json) : List Char :=
  match level with
  | none => v.chars
  | some n => v.laidOut n

/-- The text of a side with its label. -/
def labelled (label : String) (branch : List Char) : List Char :=
  label.toList ++ ':' :: ' ' :: branch

/-- The call of a two-sided value, given the texts of its sides. -/
def dualCall (stub test : Option (List Char)) : List Char :=
  let sides := match stub, test with
    | some s, some t => labelled "stub" s ++ ',' :: ' ' :: labelled "test" t
    | some s, none => labelled "stub" s
    | none, some t => labelled "test" t
    | none, none => []
  Matcher.call "value" ('\x7b' :: (sides ++ ['\x7d']))

mutual

/-- The characters of the script of a tree. -/
def chars (level : Option Nat) : Constraint → List Char
  | constant v => jsonChars level v
  | object [] => ['\x7b', '\x7d']
  | object ((k, c) :: rest) =>
    '\x7b' :: (lineStart (inside level) ++ keyChars level k ++ chars (inside level) c
      ++ charsOfFields level rest)
  | array [] => ['[', ']']
  | array (c :: rest) =>
    '[' :: (lineStart (inside level) ++ chars (inside level) c ++ charsOfItems level rest)
  | matcher m => m.chars
  | extraction e => Matcher.call "jsonpath" (Json.quotedChars e.expression)
  | dual .both stub test => dualCall (charsOfBranch? level stub) (charsOfBranch? level test)
  | dual .stubOnly stub _ => (charsOfBranch? level stub).getD ['n', 'u', 'l', 'l']
  | dual .testOnly _ test => (charsOfBranch? level test).getD ['n', 'u', 'l', 'l']
termination_by structural c => c

/-- What follows a field of an object. -/
def charsOfFields (level : Option Nat) : List (String × Constraint) → List Char
  | [] => lineStart level ++ ['\x7d']
  | (k, c) :: rest =>
    ',' :: (lineStart (inside level) ++ keyChars level k ++ chars (inside level) c
      ++ charsOfFields level rest)
termination_by structural fields => fields

/-- What follows an item of an array. -/
def charsOfItems (level : Option Nat) : List Constraint → List Char
  | [] => lineStart level ++ [']']
  | c :: rest =>
    ',' :: (lineStart (inside level) ++ chars (inside level) c ++ charsOfItems level rest)
termination_by structural items => items

/-- The script of a side, if there is one. -/
def charsOfBranch? (level : Option Nat) : Option Constraint → Option (List Char)
  | none => none
  | some c => some (chars level c)
termination_by structural c => c

end

/-- The compact script of a tree. -/
def text (c : Constraint) : String := String.ofList (c.chars none)

/-- The laid-out script of a tree. -/
def prettyText (c : Constraint) : String := String.ofList (c.chars (some 0))

end HttpContract.Constraint
