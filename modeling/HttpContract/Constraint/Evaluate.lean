import HttpContract.Constraint.Basic

/-!
# Constraint — evaluation

Evaluating a tree in a context replaces every query by the values that it selects in the context's
document, and every two-sided value by the side of the context's mode. What is left says only what a
value must be like.
-/

namespace HttpContract

/-- The side of a contract: the stub answers requests, the test sends them. -/
inductive Mode where
  | stub
  | test
deriving DecidableEq

/-- What a tree is evaluated in. -/
structure Context where
  document : Json
  mode : Mode

namespace Constraint

/-- The side of a two-sided value that a mode takes. -/
def selected (sidedness : Sidedness) (mode : Mode) (stub test : Option Constraint) :
    Option Constraint :=
  match sidedness, mode with
  | .stubOnly, _ => stub
  | .both, .stub => stub
  | .testOnly, _ => test
  | .both, .test => test

variable [Library]

mutual

/-- The tree in a context. -/
def evaluate (ctx : Context) : Constraint → Constraint
  | constant v => constant v
  | object fields => object (evaluateFields ctx fields)
  | array items => array (evaluateItems ctx items)
  | matcher m => matcher m
  | extraction e => constant (.array (e.select ctx.document))
  | dual .both stub test =>
    match ctx.mode with
    | .stub => evaluateBranch ctx stub
    | .test => evaluateBranch ctx test
  | dual .stubOnly stub _ => evaluateBranch ctx stub
  | dual .testOnly _ test => evaluateBranch ctx test
termination_by structural c => c

/-- The fields in a context. -/
def evaluateFields (ctx : Context) : List (String × Constraint) → List (String × Constraint)
  | [] => []
  | (k, c) :: rest => (k, c.evaluate ctx) :: evaluateFields ctx rest
termination_by structural fields => fields

/-- The items in a context. -/
def evaluateItems (ctx : Context) : List Constraint → List Constraint
  | [] => []
  | c :: rest => c.evaluate ctx :: evaluateItems ctx rest
termination_by structural items => items

/-- A side in a context; a missing one is null. -/
def evaluateBranch (ctx : Context) : Option Constraint → Constraint
  | none => constant .null
  | some c => c.evaluate ctx
termination_by structural c => c

end

end Constraint

end HttpContract
