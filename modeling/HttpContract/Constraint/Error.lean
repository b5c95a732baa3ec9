import HttpContract.Calendar.Render
import HttpContract.Constraint.Bounds
import HttpContract.Random
import HttpContract.Text.Quoted

/-!
# Constraint.Error — why a constraint gives no answer

Comparing a value with a constraint and generating one can fail. A failure is one of three sorts:
the constraint has no such operation, no value meets it, or none could be made. What generates a
value may also be broken off, and the draws of one that gives no value stay used up.
-/

namespace HttpContract.Constraint

open Calendar (Instant)

/-- What a constraint can be used for. -/
inductive Capability where
  | evaluate
  | compare
  | mock
deriving DecidableEq

/-- The name of a use. -/
def Capability.name : Capability → String
  | evaluate => "evaluate"
  | compare => "compare"
  | mock => "mock"

/-- The uses that a constraint has. -/
structure Capabilities where
  evaluate : Bool
  compare : Bool
  mock : Bool
deriving DecidableEq

/-- Why a constraint gives no answer. -/
inductive Error where
  | unsupported (kind : String) (capability : Capability)
  | emptyRange (kind : NumberKind) (lo hi : Binary64) (bounds : Bounds)
  | emptyWindow (lo hi : Instant)
  | noDateWithin
  | noChoice
  | notDrawable (reason : String)
  | noCandidate (kind : String)
  | notRenderable (format : String)
deriving DecidableEq

/-- The sorts of failures. -/
inductive ErrorKind where
  | unsupported
  | unsatisfiable
  | generation
deriving DecidableEq

namespace Error

/-- How many candidates are tried for a value. -/
def attempts : Nat := 32

/-- The sort of a failure. -/
def kind : Error → ErrorKind
  | unsupported .. => .unsupported
  | emptyRange .. => .unsatisfiable
  | emptyWindow .. => .unsatisfiable
  | noDateWithin => .unsatisfiable
  | noChoice => .unsatisfiable
  | notDrawable .. => .generation
  | noCandidate .. => .generation
  | notRenderable .. => .generation

/-- The text for constraints that no value meets. -/
def unsatisfiableText (kind reason : String) : String :=
  kind ++ " constraints cannot be satisfied: " ++ reason

/-- The text for values that could not be made. -/
def generationText (kind reason : String) : String :=
  "failed to generate " ++ kind ++ " value: " ++ reason

/-- The text of a failure. -/
def message : Error → String
  | unsupported kind capability => kind ++ " does not support " ++ capability.name
  | emptyRange kind lo hi bounds =>
    unsatisfiableText kind.name ("empty range [" ++ lo.plainText ++ ", " ++ hi.plainText
      ++ "] for bounds " ++ bounds.toJson.text)
  | emptyWindow lo hi =>
    unsatisfiableText "date" ("window " ++ lo.plainText ++ " .. " ++ hi.plainText ++ " is empty")
  | noDateWithin => unsatisfiableText "date" "no rendered date falls within from/to"
  | noChoice => unsatisfiableText "anyOf" "empty choice list"
  | notDrawable reason => generationText "regex" reason
  | noCandidate kind =>
    generationText kind ("no candidate matched after " ++ toString attempts ++ " attempts")
  | notRenderable format =>
    generationText "date" ("cannot render with format " ++ Text.quoted format)

end Error

/-- A computation that makes a value. -/
abbrev Generator := Attempt Error

end HttpContract.Constraint
