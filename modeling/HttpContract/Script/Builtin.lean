import HttpContract.Constraint.Basic
import HttpContract.Script.Error

/-!
# Script.Builtin — the constructors of scripts

The functions that a script can call. `Builtin.apply` makes the constraint of a call; an argument
that is `undefined` is none. Which name calls which function is said by bindings, which can be
changed for one run.
-/

namespace HttpContract.Script

open Constraint (Bounds DateRule FakeKind Matcher NumberKind PatternRule Period TextKind)

/-- The functions that a script can call. -/
inductive Builtin where
  | regex
  | integer
  | float
  | date
  | text
  | name
  | email
  | phone
  | address
  | uuid4
  | anyOf
  | notAnyOf
  | jsonpath
  | value
  | stubValue
  | testValue
deriving DecidableEq

namespace Builtin

/-- All functions. -/
def all : List Builtin :=
  [regex, integer, float, date, text, name, email, phone, address, uuid4, anyOf, notAnyOf, jsonpath,
    value, stubValue, testValue]

/-- The standard name of a function. -/
def label : Builtin → String
  | regex => "regex"
  | integer => "integer"
  | float => "float"
  | date => "date"
  | text => "text"
  | name => "name"
  | email => "email"
  | phone => "phone"
  | address => "address"
  | uuid4 => "uuid4"
  | anyOf => "anyOf"
  | notAnyOf => "notAnyOf"
  | jsonpath => "jsonpath"
  | value => "value"
  | stubValue => "stubValue"
  | testValue => "testValue"

/-- The function with a standard name. -/
def ofLabel? (label : String) : Option Builtin := all.find? fun b => b.label = label

/-! ## Arguments -/

/-- The value of an argument that must be a literal. -/
def literal (c : Constraint) : Except Misuse Json :=
  match c.literal? with
  | some v => .ok v
  | none => .error (.notLiteral c.kind)

/-- A text, if one is given. -/
def stringArgument (argument : Option Constraint) : Except Misuse (Option String) :=
  match argument with
  | none => .ok none
  | some c =>
    match literal c with
    | .error e => .error e
    | .ok (.string s) => .ok (some s)
    | .ok .null => .ok none
    | .ok v => .error (.notString v)

/-- The options of a call; none are given without an argument. -/
def options (argument : Option Constraint) : Except Misuse (List (String × Json)) :=
  match argument with
  | none => .ok []
  | some c =>
    match literal c with
    | .error e => .error e
    | .ok .null => .ok []
    | .ok (.object fields) => .ok fields
    | .ok v => .error (.notOptions v)

/-- An option that is a text. -/
def stringOption (options : List (String × Json)) (key : String) : Except Misuse (Option String) :=
  match options.lookup key with
  | none => .ok none
  | some .null => .ok none
  | some (.string s) => .ok (some s)
  | some v => .error (.optionNotString key v)

/-- An option that is a number. -/
def numberOption (options : List (String × Json)) (key : String) :
    Except Misuse (Option Json.Number) :=
  match options.lookup key with
  | none => .ok none
  | some .null => .ok none
  | some (.number n) => .ok (some n)
  | some v => .error (.optionNotNumber key v)

/-- An option that is one of some names. -/
def namedOption {α : Type} (ofName? : String → Option α) (options : List (String × Json))
    (key : String) : Except Misuse (Option α) := do
  match ← stringOption options key with
  | none => return none
  | some s =>
    match ofName? s with
    | some x => return some x
    | none => throw (.unknownType s)

/-- The limits of a number. -/
def bounds (options : List (String × Json)) : Except Misuse Bounds := do
  let above ← numberOption options "gt"
  let atLeast ← numberOption options "gte"
  let below ← numberOption options "lt"
  let atMost ← numberOption options "lte"
  return ⟨above, atLeast, below, atMost⟩

/-- The choices of a call: all its arguments, `undefined` standing for null. -/
def choices : List (Option Constraint) → Except Misuse (List Json)
  | [] => .ok []
  | argument :: rest => do
    let v ← match argument with
      | some c => literal c
      | none => pure .null
    let more ← choices rest
    return v :: more

/-- The choices of a call that has at least one. -/
def someChoices (arguments : List (Option Constraint)) : Except Misuse (List Json) := do
  match ← choices arguments with
  | [] => throw .noChoice
  | values => return values

/-- The names of the side that a stub takes. -/
def stubKeys : List String := ["stub", "client", "consumer"]

/-- The names of the side that a test takes. -/
def testKeys : List String := ["test", "server", "producer"]

/-- The first of some fields that an object has. -/
def firstField? (fields : List (String × Constraint)) (keys : List String) : Option Constraint :=
  keys.findSome? fun key => fields.lookup key

/-- A two-sided value from an object with its sides. -/
def dual (sidedness : Sidedness) (argument : Option Constraint) : Except Misuse Constraint :=
  match argument with
  | some (.object fields) =>
    .ok (.dual sidedness (firstField? fields stubKeys) (firstField? fields testKeys))
  | _ => .error .noBranches

/-! ## Calls -/

section Calls

variable [Library]

/-- A condition that a text matches a pattern. -/
def makeRegex (argument : Option Constraint) : Except Misuse Constraint := do
  match ← stringArgument argument with
  | none => throw .noPattern
  | some source =>
    match PatternRule.ofSource? source with
    | some rule => return .matcher (.regex rule)
    | none => throw .badPattern

/-- A number of a kind within limits. -/
def makeNumber (kind : NumberKind) (argument : Option Constraint) : Except Misuse Constraint := do
  let limits ← bounds (← options argument)
  return .matcher (.number kind limits)

/-- A date in a format and a range. -/
def makeDate (argument : Option Constraint) : Except Misuse Constraint := do
  let fields ← options argument
  let period ← namedOption Period.ofName? fields "type"
  let format ← stringOption fields "format"
  let earliest ← stringOption fields "from"
  let latest ← stringOption fields "to"
  match DateRule.ofOptions format period earliest latest with
  | .ok rule => return .matcher (.date rule)
  | .error fault => throw (.badDate fault)

/-- A filler text of a kind. -/
def makeText (argument : Option Constraint) : Except Misuse Constraint := do
  let kind ← namedOption TextKind.ofName? (← options argument) "type"
  return .matcher (.text kind)

/-- A query. -/
def makeExtraction (argument : Option Constraint) : Except Misuse Constraint := do
  match ← stringArgument argument with
  | none => throw .noPath
  | some expression =>
    match Extraction.parse? expression with
    | some e => return .extraction e
    | none => throw .badPath

/-- The constraint that a call makes. Most functions look at their first argument only. -/
def make (b : Builtin) (arguments : List (Option Constraint)) : Except Misuse Constraint :=
  let first := arguments.head?.join
  match b with
  | regex => makeRegex first
  | integer => makeNumber .integer first
  | float => makeNumber .float first
  | date => makeDate first
  | text => makeText first
  | name => .ok (.matcher (.fake .name))
  | email => .ok (.matcher (.fake .email))
  | phone => .ok (.matcher (.fake .phone))
  | address => .ok (.matcher (.fake .address))
  | uuid4 => .ok (.matcher .uuid4)
  | anyOf => (someChoices arguments).map fun vs => .matcher (.anyOf vs)
  | notAnyOf => (someChoices arguments).map fun vs => .matcher (.notAnyOf vs)
  | jsonpath => makeExtraction first
  | value => dual .both first
  | stubValue => dual .stubOnly first
  | testValue => dual .testOnly first

/-- The result of a call in a script. -/
def apply (b : Builtin) (arguments : List (Option Constraint)) : Except Error Constraint :=
  match b.make arguments with
  | .ok c => .ok c
  | .error wrong => .error (.misuse b.label wrong)

end Calls

end Builtin

/-- Which names call which functions. -/
abbrev Bindings := List (String × Builtin)

namespace Bindings

/-- Every function under its own name. -/
def standard : Bindings := Builtin.all.map fun b => (b.label, b)

/-- Binds a name anew. -/
def bind (bindings : Bindings) (name : String) (b : Builtin) : Bindings := (name, b) :: bindings

/-- The standard bindings with some names bound anew, the last one counting. -/
def withOverrides (overrides : List (String × Builtin)) : Bindings :=
  overrides.foldl (fun bindings o => bindings.bind o.1 o.2) standard

end Bindings

end HttpContract.Script
