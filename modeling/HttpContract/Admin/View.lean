import HttpContract.Contract.Compile
import HttpContract.Request.Form

/-!
# Admin.View — the scripts of a contract

A contract can be read as it was handed in, in canonical form, or as what is left of it on the side
of a stub or of a test. The view is chosen in the query of a request.
-/

namespace HttpContract.Admin

/-- A way to read a contract. -/
inductive View where
  | raw
  | canonical
  | side (mode : Mode)
deriving DecidableEq

namespace View

/-- The view of a name; the empty name is that of the script as it was handed in. -/
def named? (name : String) : Option View :=
  match name with
  | "raw" => some raw
  | "" => some raw
  | "canonical" => some canonical
  | "stub" => some (side .stub)
  | "test" => some (side .test)
  | _ => none

/-- The value that a part of a query gives to `view`. -/
def value? (part : List Char) : Option String :=
  if "view=".toList.isPrefixOf part then some (String.ofList (part.drop 5)) else none

/-- The view that a query chooses; there is none if the name is unknown. -/
def ofQuery? (query : Option String) : Option View :=
  match ((Form.splitAll '&' (query.getD "").toList).filterMap value?).head? with
  | some name => named? name
  | none => some raw

/-- The name of a side in messages. -/
def sideLabel : Mode → String
  | .stub => "Stub"
  | .test => "Test"

/-- The script of a contract in a view, or the message of a failure. -/
def script [Library] (limits : Script.Limits) (c : Contract) : View → Except String String
  | raw => .ok c.source
  | canonical => .ok c.script
  | side mode =>
    match c.derive limits mode with
    | .ok derived => .ok derived.source
    | .error e => .error ("Cannot derive " ++ sideLabel mode ++ " script: " ++ e.message)

end View

end HttpContract.Admin
