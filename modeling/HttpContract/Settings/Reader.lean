import HttpContract.Settings.Basic
import HttpContract.Settings.Outline

/-!
# Settings — reading a settings file

A settings file has sections with fields. What is left out keeps its default and what is unknown is
passed over, but a known section or field must be given at most once and with a value of its kind.
-/

namespace HttpContract.Settings

open Outline (missing)

/-! ## Values -/

/-- A text: any scalar as it is written. -/
def text? : Outline → Option String
  | .scalar text _ => some text
  | _ => none

/-- The scalars that say that there is nothing. -/
def nothings : List String := ["", "null", "Null", "NULL", "~"]

/-- A text that may be said to be missing. -/
def optionalText? : Outline → Option (Option String)
  | .scalar text plain => some (if plain && nothings.contains text then none else some text)
  | _ => none

/-- A truth value. -/
def truth? : Outline → Option Bool
  | .scalar text true =>
    if ["true", "True", "TRUE"].contains text then some true
    else if ["false", "False", "FALSE"].contains text then some false
    else none
  | _ => none

/-- The digit that a character is in a base of at most sixteen. -/
def digit? (base : Nat) (c : Char) : Option Nat :=
  (Json.hexDigitValue? c).filter (· < base)

/-- The number that digits mean; there must be one. -/
def digits? (base : Nat) (cs : List Char) : Option Nat :=
  if cs.isEmpty then none
  else cs.foldlM (fun n c => (digit? base c).map fun d => n * base + d) 0

/-- A whole number that is not negative, in one of four bases. Decimal digits do not start with a
zero, apart from zero itself. -/
def number? (text : List Char) : Option Nat :=
  let unsigned := match text with
    | '+' :: rest => rest
    | cs => cs
  match unsigned with
  | '0' :: 'x' :: rest => digits? 16 rest
  | '0' :: 'o' :: rest => digits? 8 rest
  | '0' :: 'b' :: rest => digits? 2 rest
  | '0' :: _ :: _ => none
  | cs => digits? 10 cs

/-- A whole number below a limit. -/
def below? (limit : Nat) : Outline → Option Nat
  | .scalar text true => (number? text.toList).filter (· < limit)
  | _ => none

/-! ## Sections -/

/-- The fields of a section; one that holds nothing at all has none. -/
def fieldsOf? : Outline → Option (List (String × Outline))
  | .fields fs => some fs
  | .scalar text plain => if text.isEmpty && plain then some [] else none
  | .items _ => none

/-- Whether no known name is given twice. -/
def givenOnce (known : List String) : List (String × Outline) → Bool
  | [] => true
  | (name, _) :: rest =>
    !(known.contains name && (rest.map (·.1)).contains name) && givenOnce known rest

/-- Reads a section by setting its fields one after another. -/
def readFields? {α : Type} (known : List String) (set : α → String × Outline → Option α) (start : α)
    (v : Outline) : Option α := do
  let fields ← fieldsOf? v
  if givenOnce known fields then fields.foldlM set start else none

/-- Sets a field of the administration. -/
def setAdmin (s : Admin) (field : String × Outline) : Option Admin :=
  match field.1 with
  | "host" => (text? field.2).map fun host => { s with host }
  | "port" => (below? 65536 field.2).map fun place => { s with place }
  | _ => some s

/-- Sets a field of the stubs. -/
def setStubs (s : Stubs) (field : String × Outline) : Option Stubs :=
  match field.1 with
  | "host" => (text? field.2).map fun host => { s with host }
  | "shutdown_timeout_ms" =>
    (below? 18446744073709551616 field.2).map fun drainMillis => { s with drainMillis }
  | "max_body_bytes" =>
    (below? 18446744073709551616 field.2).map fun bodyLimit => { s with bodyLimit }
  | _ => some s

/-- Sets a field of the limits of scripts. -/
def setScripts (s : Scripts) (field : String × Outline) : Option Scripts :=
  match field.1 with
  | "max_script_bytes" => (below? 18446744073709551616 field.2).map fun size => { s with size }
  | "max_depth" => (below? 18446744073709551616 field.2).map fun depth => { s with depth }
  | "max_nodes" => (below? 18446744073709551616 field.2).map fun nodes => { s with nodes }
  | "timeout_ms" => (below? 18446744073709551616 field.2).map fun millis => { s with millis }
  | _ => some s

/-- Sets a field of the wire tests. -/
def setWireTests (s : WireTests) (field : String × Outline) : Option WireTests :=
  match field.1 with
  | "timeout_secs" => (below? 18446744073709551616 field.2).map fun seconds => { s with seconds }
  | "parallel_contracts" => (truth? field.2).map fun parallel => { s with parallel }
  | _ => some s

/-- Sets a section of the settings. -/
def setSection (s : Settings) (field : String × Outline) : Option Settings :=
  match field.1 with
  | "admin" => (readFields? ["host", "port"] setAdmin {} field.2).map fun admin => { s with admin }
  | "wirestub" =>
    (readFields? ["host", "shutdown_timeout_ms", "max_body_bytes"] setStubs {} field.2).map
      fun stubs => { s with stubs }
  | "sandbox" =>
    (readFields? ["max_script_bytes", "max_depth", "max_nodes", "timeout_ms"] setScripts {}
      field.2).map fun scripts => { s with scripts }
  | "wiretest" =>
    (readFields? ["timeout_secs", "parallel_contracts"] setWireTests {} field.2).map
      fun wireTests => { s with wireTests }
  | "log_level" => (optionalText? field.2).map fun logFilter => { s with logFilter }
  | _ => some s

/-- The settings that an outline describes. -/
def ofOutline? (v : Outline) : Option Settings :=
  readFields? ["admin", "wirestub", "sandbox", "wiretest", "log_level"] setSection {} v

/-- Why a settings file gives no settings. -/
inductive LoadError where
  | unreadable
  | flawed (flaw : Flaw)
deriving DecidableEq

/-- The settings in the text of a settings file. -/
def load [Library] (text : String) : Except LoadError Settings :=
  match (Outline.parse? text).bind ofOutline? with
  | none => .error .unreadable
  | some s =>
    match s.check with
    | .ok s => .ok s
    | .error flaw => .error (.flawed flaw)

end HttpContract.Settings
