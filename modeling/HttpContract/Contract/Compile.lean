import HttpContract.Constraint.Evaluate
import HttpContract.Constraint.Uuid
import HttpContract.Contract.Basic
import HttpContract.Script.Parser

/-!
# Contract — from scripts to contracts

A script exports an object with the fields of a contract. They are looked at in their order, and the
first one that does not fit ends the reading. A contract without an identifier gets a fresh one; one
without a name is named by its identifier.
-/

namespace HttpContract

/-- What is wrong with a field. -/
inductive FieldFlaw where
  | notObject (kind : String)
  | notString
  | notMethod (v : Json)
  | notMethods
  | noName
  | notList (kind : String)

/-- The text of a flaw. -/
def FieldFlaw.message : FieldFlaw → String
  | notObject kind => "expected an object, found " ++ kind
  | notString => "expected a string literal"
  | notMethod v => "expected a method name, found " ++ v.text
  | notMethods => "expected a method name or a non-empty list of names"
  | noName => "each parameter needs a `name`"
  | notList kind => "expected a list, found " ++ kind

/-- Why a script is no contract. -/
inductive CompileError where
  | script (e : Script.Error)
  | notObject (kind : String)
  | field (name : String) (flaw : FieldFlaw)

/-- The text of an error. -/
def CompileError.message : CompileError → String
  | script e => e.message
  | notObject kind => "contract script must export an object, found " ++ kind
  | field name flaw => "invalid `" ++ name ++ "`: " ++ flaw.message

namespace Contract

/-! ## Fields -/

/-- The fields of a part; null stands for a part without any. -/
def fieldsOf (name : String) (c : Constraint) : Except CompileError (List (String × Constraint)) :=
  match c with
  | .object fields => .ok fields
  | .constant .null => .ok []
  | other => .error (.field name (.notObject other.kind))

/-- A text, or a number as its text. -/
def textOf (name : String) (c : Constraint) : Except CompileError String :=
  match c.literal? with
  | some (.string s) => .ok s
  | some (.number n) => .ok n.text
  | _ => .error (.field name .notString)

/-- A body; null and the empty text declare none. -/
def bodyOf (c : Constraint) : Option Constraint :=
  match c with
  | .constant .null => none
  | .constant (.string "") => none
  | c => some c

/-- The methods of a list. -/
def methodNames (name : String) : List Json → Except CompileError (List String)
  | [] => .ok []
  | .string m :: rest => (methodNames name rest).map (m.toUpper :: ·)
  | v :: _ => .error (.field name (.notMethod v))

/-- The methods of a contract. -/
def methodsOf (c : Constraint) : Except CompileError Methods :=
  let name := "request.method"
  match c.literal? with
  | some (.string m) => .ok (.one m.toUpper)
  | some (.array (v :: rest)) => (methodNames name (v :: rest)).map .anyOf
  | _ => .error (.field name .notMethods)

/-- The query values of a list. -/
def queryRules (name : String) : List Constraint → Except CompileError (List QueryRule)
  | [] => .ok []
  | item :: rest =>
    match item.field? "name" with
    | none => .error (.field name .noName)
    | some key =>
      (queryRules name rest).map (⟨key, (item.field? "value").getD (.constant .null)⟩ :: ·)

/-- The query values of a contract: a list, or an object by name. -/
def queryOf (c : Constraint) : Except CompileError (List QueryRule) :=
  let name := "request.queryParameters"
  match c with
  | .array items => queryRules name items
  | .object fields => .ok (fields.map fun field => ⟨.constant (.string field.1), field.2⟩)
  | other => .error (.field name (.notList other.kind))

/-- Sets a part of a request from a field. -/
def setRequestField (r : RequestRule) (field : String × Constraint) :
    Except CompileError RequestRule :=
  match field.1 with
  | "method" => (methodsOf field.2).map fun methods => { r with methods }
  | "urlPath" => .ok { r with path := field.2 }
  | "queryParameters" => (queryOf field.2).map fun query => { r with query }
  | "headers" => (fieldsOf "request.headers" field.2).map fun headers => { r with headers }
  | "body" => .ok { r with body := bodyOf field.2 }
  | _ => .ok r

/-- Sets a part of a response from a field. -/
def setResponseField (r : ResponseRule) (field : String × Constraint) :
    Except CompileError ResponseRule :=
  match field.1 with
  | "status" => .ok { r with status := field.2 }
  | "headers" => (fieldsOf "response.headers" field.2).map fun headers => { r with headers }
  | "body" => .ok { r with body := bodyOf field.2 }
  | _ => .ok r

/-- The requests of a contract. -/
def requestOf (c : Constraint) : Except CompileError RequestRule := do
  (← fieldsOf "request" c).foldlM setRequestField {}

/-- The response of a contract. -/
def responseOf (c : Constraint) : Except CompileError ResponseRule := do
  (← fieldsOf "response" c).foldlM setResponseField {}

/-- The parts of a contract that were found. -/
structure Parts where
  id : Option String := none
  name : Option String := none
  request : RequestRule := {}
  response : ResponseRule := {}

/-- Sets a part of a contract from a field. -/
def setField (p : Parts) (field : String × Constraint) : Except CompileError Parts :=
  match field.1 with
  | "id" => (textOf "id" field.2).map fun id => { p with id := some id }
  | "name" => (textOf "name" field.2).map fun name => { p with name := some name }
  | "request" => (requestOf field.2).map fun request => { p with request }
  | "response" => (responseOf field.2).map fun response => { p with response }
  | _ => .ok p

/-! ## Compiling -/

/-- The contract that a constraint describes; `fresh` is its identifier if it has none. -/
def ofConstraint (fresh source : String) (exported : Constraint) : Except CompileError Contract :=
  match exported with
  | .object fields => do
    let parts ← fields.foldlM setField {}
    let id := (parts.id.filter fun id => !id.isEmpty).getD fresh
    return ⟨id, parts.name.getD id, parts.request, parts.response, source⟩
  | other => .error (.notObject other.kind)

variable [Library]

/-- The contract of a script, with a given fresh identifier. -/
def compileWith (limits : Script.Limits) (bindings : Script.Bindings) (fresh source : String) :
    Except CompileError Contract :=
  match Script.run limits bindings source with
  | .ok exported => ofConstraint fresh source exported
  | .error e => .error (.script e)

/-- The contract of a script. -/
def compile (limits : Script.Limits) (source : String)
    (bindings : Script.Bindings := Script.Bindings.standard) :
    Sampler (Except CompileError Contract) := do
  let fresh ← Constraint.Uuid.draw
  return compileWith limits bindings fresh source

/-! ## Sides -/

/-- The function that takes the side of a mode. -/
def sideBuiltin : Mode → Script.Builtin
  | .stub => .stubValue
  | .test => .testValue

/-- The contract that is left of a contract on one side: its canonical script is compiled again,
each two-sided value being bound to that side. -/
def derive (limits : Script.Limits) (c : Contract) (mode : Mode) : Except CompileError Contract :=
  let bindings := Script.Bindings.standard.bind "value" (sideBuiltin mode)
  match compileWith limits bindings c.id c.script with
  | .error e => .error e
  | .ok derived =>
    let derived := { derived with id := c.id }
    .ok { derived with source := derived.script }

end Contract

end HttpContract
