import HttpContract.Script.Builtin
import HttpContract.Script.Lexer

/-!
# Script — from tokens to constraints

A script holds directives, which are texts without effect, and one expression, that may be assigned
to `module.exports`. An expression is a literal, an object, an array or a call; its value is made
while it is read, `undefined` being no value. Reading counts the expressions, how deep containers
and calls are nested, and the tokens, and stops at the limits.

    script := (string ';')* ('module' '.' 'exports' '=')? expression ';'*
-/

namespace HttpContract.Script

/-- What a script may use up. A script that has no time stops when the clock is first looked at. -/
structure Limits where
  size : Nat := 262144
  depth : Nat := 64
  nodes : Nat := 20000
  noTime : Bool := false
deriving DecidableEq

/-- Names that scripts elsewhere use to reach their host. -/
def forbiddenNames : List String :=
  ["require", "eval", "process", "Function", "import", "globalThis", "global", "window", "this",
    "constructor", "fetch", "setTimeout", "setInterval"]

/-- After how many tokens the clock is looked at. -/
def clockInterval : Nat := 64

/-- What is fixed while a script is read. -/
structure Setting where
  bindings : Bindings
  limits : Limits

/-- How far a script is read: the current token, those behind it, and what is used up. -/
structure State where
  current : Token
  upcoming : List Token
  ending : Ending
  tokens : Nat := 1
  depth : Nat := 0
  nodes : Nat := 0

/-- The state at the next token. -/
def State.next (s : State) : Except Error State :=
  match s.upcoming, s.ending with
  | t :: rest, _ => .ok { s with current := t, upcoming := rest, tokens := s.tokens + 1 }
  | [], .finished place => .ok { s with current := ⟨.finish, place⟩, tokens := s.tokens + 1 }
  | [], .flawed place flaw => .error (.malformed place flaw)

/-- A step of reading. -/
abbrev Reader := StateT State (Except Error)

namespace Reader

/-- The current token. -/
def peek : Reader TokenKind := do return (← get).current.kind

/-- Stops with an error. -/
def stop {α : Type} (e : Error) : Reader α := throw e

/-- Stops at the current token. -/
def flawed {α : Type} (flaw : Flaw) : Reader α := do stop (.malformed (← get).current.place flaw)

/-- Stops because the current token does not fit. -/
def unexpected {α : Type} : Reader α := do flawed (.unexpected (← peek))

/-- Goes on to the next token and looks at the clock from time to time. -/
def advance (setting : Setting) : Reader Unit := do
  let s ← (← get).next
  set s
  if s.tokens % clockInterval = 0 ∧ setting.limits.noTime then stop .timedOut

/-- Goes past a symbol. -/
def expect (setting : Setting) (symbol : Symbol) : Reader Unit := do
  if (← peek) = .symbol symbol then advance setting else unexpected

/-- Counts an expression. -/
def countNode (setting : Setting) : Reader Unit := do
  let s ← get
  set { s with nodes := s.nodes + 1 }
  if setting.limits.nodes < s.nodes + 1 then stop (.limitExceeded .nodes setting.limits.nodes)

/-- Goes one level deeper. -/
def enter (setting : Setting) : Reader Unit := do
  let s ← get
  set { s with depth := s.depth + 1 }
  if setting.limits.depth < s.depth + 1 then stop (.limitExceeded .depth setting.limits.depth)

/-- Comes back from a level. -/
def leave : Reader Unit := modify fun s => { s with depth := s.depth - 1 }

/-- Goes past a comma, or stops where neither a comma nor the closing symbol stands. -/
def separate (setting : Setting) (closing : Symbol) : Reader Unit := do
  let kind ← peek
  if kind = .symbol .comma then advance setting
  else if kind = .symbol closing then return ()
  else unexpected

end Reader

open Reader

/-- The opposite of a number, which always fits: whole numbers in scripts have no sign. -/
def negated (n : Json.Number) : Json.Number :=
  match n with
  | .integer n => .integer (Json.WordInt.ofInt (-n.val))
  | .float x => .float x.negate

/-- Reads a number behind its sign. -/
def readSigned (setting : Setting) (negative : Bool) : Reader (Option Constraint) := do
  match ← peek with
  | .number n =>
    advance setting
    return some (.constant (.number (if negative then negated n else n)))
  | _ => unexpected

/-- The key that a token gives to a field. -/
def keyOf? : TokenKind → Option String
  | .identifier name => some name
  | .string s => some s
  | .number n => some n.text
  | _ => none

/-- Adds a field: one with the same key is replaced by it at the end, or dropped for `undefined`. -/
def putField (key : String) (value : Option Constraint) (fields : List (String × Constraint)) :
    List (String × Constraint) :=
  let others := fields.filter fun field => field.1 ≠ key
  match value with
  | some c => others ++ [(key, c)]
  | none => others

/-- The value of a word, if it has one; `undefined` has none, but is a word as well. -/
def wordValue? : String → Option (Option Constraint)
  | "undefined" => some none
  | "null" => some (some (.constant .null))
  | "true" => some (some (.constant (.bool true)))
  | "false" => some (some (.constant (.bool false)))
  | _ => none

variable [Library]

mutual

/-- Reads an expression. The first argument bounds the steps. -/
def readExpression (setting : Setting) : Nat → Reader (Option Constraint)
  | 0 => unexpected
  | steps + 1 => do
    countNode setting
    match ← peek with
    | .symbol .leftBrace =>
      advance setting
      enter setting
      return some (.object (← readFields setting steps []))
    | .symbol .leftBracket =>
      advance setting
      enter setting
      return some (.array (← readItems setting steps))
    | .string s =>
      advance setting
      return some (.constant (.string s))
    | .number n =>
      advance setting
      return some (.constant (.number n))
    | .symbol .minus =>
      advance setting
      readSigned setting true
    | .symbol .plus =>
      advance setting
      readSigned setting false
    | .identifier name => readNamed setting name steps
    | _ => unexpected

/-- Reads a word or a call. -/
def readNamed (setting : Setting) (name : String) : Nat → Reader (Option Constraint)
  | 0 => unexpected
  | steps + 1 => do
    if forbiddenNames.contains name then stop (.forbidden name)
    advance setting
    match wordValue? name with
    | some value => return value
    | none =>
      if (← peek) ≠ .symbol .leftParen then stop (.unknownIdentifier name)
      match setting.bindings.lookup name with
      | none => stop (.unknownFunction name)
      | some b =>
        advance setting
        enter setting
        let arguments ← readArguments setting steps
        match b.apply arguments with
        | .ok c => return some c
        | .error e => stop e

/-- Reads the fields of an object and its closing brace; `fields` holds those read. -/
def readFields (setting : Setting) : Nat → List (String × Constraint) →
    Reader (List (String × Constraint))
  | 0, _ => unexpected
  | steps + 1, fields => do
    let kind ← peek
    if kind = .symbol .rightBrace then
      advance setting
      leave
      return fields
    else
      match keyOf? kind with
      | none => unexpected
      | some key =>
        advance setting
        expect setting .colon
        let value ← readExpression setting steps
        separate setting .rightBrace
        readFields setting steps (putField key value fields)

/-- Reads the items of an array and its closing bracket; `undefined` counts as null. -/
def readItems (setting : Setting) : Nat → Reader (List Constraint)
  | 0 => unexpected
  | steps + 1 => do
    if (← peek) = .symbol .rightBracket then
      advance setting
      leave
      return []
    else
      let value ← readExpression setting steps
      separate setting .rightBracket
      let more ← readItems setting steps
      return value.getD (.constant .null) :: more

/-- Reads the arguments of a call and its closing parenthesis. -/
def readArguments (setting : Setting) : Nat → Reader (List (Option Constraint))
  | 0 => unexpected
  | steps + 1 => do
    if (← peek) = .symbol .rightParen then
      advance setting
      leave
      return []
    else
      let value ← readExpression setting steps
      separate setting .rightParen
      let more ← readArguments setting steps
      return value :: more

end

/-- Skips directives. A text without a semicolon behind it is the current token again, as the start
of the expression; the token that was met behind it is passed over. -/
def skipDirectives (setting : Setting) : Nat → Reader Unit
  | 0 => return ()
  | steps + 1 => do
    let directive := (← get).current
    match directive.kind with
    | .string _ =>
      advance setting
      if (← peek) = .symbol .semicolon then
        advance setting
        skipDirectives setting steps
      else modify fun s => { s with current := directive }
    | _ => return ()

/-- Goes past the assignment to `module.exports`, if there is one. -/
def skipAssignment (setting : Setting) : Reader Unit := do
  if (← peek) = .identifier "module" then
    advance setting
    expect setting .dot
    let kind ← peek
    if kind = .identifier "exports" then advance setting else flawed (.exportsExpected kind)
    expect setting .equals

/-- Skips semicolons. -/
def skipSemicolons (setting : Setting) : Nat → Reader Unit
  | 0 => return ()
  | steps + 1 => do
    if (← peek) = .symbol .semicolon then
      advance setting
      skipSemicolons setting steps

/-- Reads a whole script. -/
def readScript (setting : Setting) (steps : Nat) : Reader Constraint := do
  skipDirectives setting steps
  if (← peek) = .finish then stop .noExport
  skipAssignment setting
  let exported ← readExpression setting steps
  skipSemicolons setting steps
  if (← peek) ≠ .finish then unexpected
  match exported with
  | some c => return c
  | none => stop .noExport

/-- The state before a script is read, unless it starts with a flaw. -/
def State.initial (tokens : Tokens) : Except Error State :=
  match tokens.list, tokens.ending with
  | t :: rest, ending => .ok { current := t, upcoming := rest, ending }
  | [], .finished place =>
    .ok { current := ⟨.finish, place⟩, upcoming := [], ending := .finished place }
  | [], .flawed place flaw => .error (.malformed place flaw)

/-- The value that a script exports. -/
def run (limits : Limits) (bindings : Bindings) (source : String) : Except Error Constraint :=
  if limits.size < source.utf8ByteSize then .error (.limitExceeded .size limits.size)
  else
    let tokens := Tokens.ofScript source.toList
    match State.initial tokens with
    | .error e => .error e
    | .ok s =>
      match (readScript ⟨bindings, limits⟩ (3 * tokens.list.length + 8)).run s with
      | .ok (c, _) => .ok c
      | .error e => .error e

end HttpContract.Script
