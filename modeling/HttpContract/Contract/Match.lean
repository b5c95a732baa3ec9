import HttpContract.Constraint.Compare
import HttpContract.Constraint.Mock
import HttpContract.Contract.Basic
import HttpContract.Request.Basic

/-!
# Contract — which requests a contract handles

A contract handles a request if its method is declared and every declared part is met, the parts
being evaluated against the document of the request. A part that cannot be compared is not met.
-/

namespace HttpContract.Contract

open Calendar (Instant)

variable [Library]

/-- Whether a value meets a part in a context. -/
def meets (ctx : Context) (part : Constraint) (actual : Json) : Bool :=
  match (part.evaluate ctx).compare actual with
  | .ok met => met
  | .error _ => false

/-- A value as a name: a text as it is, nothing for null, and the text of anything else. -/
def nameOf? (v : Json) : Option String := v.stringForm

/-- The name that a constraint gives to a query value, if it gives one. -/
def resolveName (now : Instant) (ctx : Context) (name : Constraint) : Drawing (Option String) := do
  match ← (name.resolve now ctx).settle with
  | .ok v => return nameOf? v
  | .error _ => return none

/-- Whether query values meet the declared ones, up to the first one that is not met. -/
def meetsQuery (now : Instant) (ctx : Context) (query : List (String × Json)) :
    List QueryRule → Drawing Bool
  | [] => return true
  | rule :: rest => do
    match ← resolveName now ctx rule.name with
    | none => return false
    | some name =>
      if meets ctx rule.value ((query.lookup name).getD .null) then meetsQuery now ctx query rest
      else return false

/-- Whether the headers of a request meet the declared ones. -/
def meetsHeaders (ctx : Context) (r : Request) (headers : List (String × Constraint)) : Bool :=
  headers.all fun h => meets ctx h.2 (((r.header? h.1).map .string).getD .null)

/-- Whether the body of a request meets the declared one, if one is declared. -/
def meetsBody (ctx : Context) (r : Request) (body : Option Constraint) : Bool :=
  match body with
  | none => true
  | some c => meets ctx c r.parsedBody

/-- Whether a contract handles a request below a base path. -/
def handles (c : Contract) (now : Instant) (basePath : String) (r : Request) : Drawing Bool :=
  let rule := c.request
  let ctx := r.context basePath
  if rule.methods.contain r.method
      && meets ctx rule.path (.string (Request.pathBelow basePath r.path)) then do
    if ← meetsQuery now ctx r.queryFields rule.query then
      return meetsHeaders ctx r rule.headers && meetsBody ctx r rule.body
    else return false
  else return false

end HttpContract.Contract
