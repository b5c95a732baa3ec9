import HttpContract.JsonPath.Basic
import HttpContract.Json.Parser

/-!
# JsonPath — reading a query

A reader of the text of a query over the list of its characters. Each reader returns what it read
and the characters after it, or `none`. Conditions whose types do not fit are not queries.
-/

namespace HttpContract.JsonPath

open Json (isBlank skipBlanks)

/-- The greatest number that may stand for a place: beyond it, not every whole number is a double.
-/
def placeLimit : Int := 9007199254740991

/-! ## Literals -/

/-- The digits of a whole number without leading zeros. -/
def parseDigits (cs : List Char) : Option (List Char × List Char) :=
  match Json.takeDigitChars cs with
  | ([], _) => none
  | (['0'], rest) => some (['0'], rest)
  | ('0' :: _, _) => none
  | (digits, rest) => some (digits, rest)

/-- Reads a place: a whole number of limited size, zero having no sign. -/
def parsePlace (cs : List Char) : Option (Int × List Char) := do
  let (negative, rest) := match cs with
    | '-' :: rest => (true, rest)
    | rest => (false, rest)
  let (digits, rest) ← parseDigits rest
  let n : Nat := digits.foldl (fun n d => n * 10 + (d.toNat - 48)) 0
  if negative && n = 0 then none
  else if placeLimit < n then none
  else some (if negative then -(n : Int) else n, rest)

/-- The character that an escape stands for, besides the quote itself. -/
def escape? : Char → Option Char
  | '\\' => some '\\'
  | '/' => some '/'
  | 'b' => some '\x08'
  | 'f' => some '\x0c'
  | 'n' => some '\n'
  | 'r' => some '\r'
  | 't' => some '\t'
  | _ => none

/-- Reads the inside of a string up to the closing quote; `done` holds what was read, last
character first. Surrogate codes are no characters. -/
def parseStringFrom (quote : Char) : Nat → List Char → List Char → Option (String × List Char)
  | 0, _, _ => none
  | _ + 1, _, [] => none
  | fuel + 1, done, c :: rest =>
    if c = quote then some (String.ofList done.reverse, rest)
    else if c = '\\' then
      match rest with
      | [] => none
      | 'u' :: rest =>
        match Json.parseHex4 rest with
        | some (n, rest) =>
          if 0xd800 ≤ n ∧ n ≤ 0xdfff then none
          else parseStringFrom quote fuel (Char.ofNat n :: done) rest
        | none => none
      | e :: rest =>
        if e = quote then parseStringFrom quote fuel (quote :: done) rest
        else
          match escape? e with
          | some c => parseStringFrom quote fuel (c :: done) rest
          | none => none
    else if c.toNat < 32 then none
    else parseStringFrom quote fuel (c :: done) rest

/-- Reads a string between quotes of either kind. -/
def parseString : List Char → Option (String × List Char)
  | '\'' :: rest => parseStringFrom '\'' (rest.length + 1) [] rest
  | '"' :: rest => parseStringFrom '"' (rest.length + 1) [] rest
  | _ => none

/-- Reads a literal. -/
def parseLiteral (cs : List Char) : Option (Json × List Char) :=
  match cs with
  | '\'' :: _ => (parseString cs).map fun r => (.string r.1, r.2)
  | '"' :: _ => (parseString cs).map fun r => (.string r.1, r.2)
  | 'n' :: 'u' :: 'l' :: 'l' :: rest => some (.null, rest)
  | 't' :: 'r' :: 'u' :: 'e' :: rest => some (.bool true, rest)
  | 'f' :: 'a' :: 'l' :: 's' :: 'e' :: rest => some (.bool false, rest)
  | cs => Json.parseNumber cs

/-! ## Names, places and slices -/

/-- Whether a character may stand in a short name. -/
def isNameChar (first : Bool) (c : Char) : Bool :=
  c.isAlpha || c = '_' || 0x80 ≤ c.toNat || (!first && c.isDigit)

/-- Reads a short name. -/
def parseName (cs : List Char) : Option (String × List Char) :=
  match cs with
  | [] => none
  | c :: rest =>
    if isNameChar true c then
      let (more, rest) := rest.span (isNameChar false)
      some (String.ofList (c :: more), rest)
    else none

/-- Reads a place, if there is one. -/
def parsePlace? (cs : List Char) : Option (Option Int × List Char) :=
  match cs with
  | [] => some (none, [])
  | c :: _ =>
    if c = '-' || c.isDigit then (parsePlace cs).map fun r => (some r.1, r.2)
    else some (none, cs)

/-- Reads an index or a slice. -/
def parseIndexOrSlice (cs : List Char) : Option (Selector × List Char) := do
  let (start, rest) ← parsePlace? cs
  match skipBlanks rest with
  | ':' :: afterColon =>
    let (stop, rest) ← parsePlace? (skipBlanks afterColon)
    match skipBlanks rest with
    | ':' :: afterColon =>
      match ← parsePlace? (skipBlanks afterColon) with
      | (none, _) => some (.slice ⟨start, stop, none⟩, afterColon)
      | (step, rest) => some (.slice ⟨start, stop, step⟩, rest)
    | _ => some (.slice ⟨start, stop, none⟩, rest)
  | _ => start.map fun i => (.index i, rest)

/-! ## Queries -/

/-- Reads a comparison operator. -/
def parseComparison : List Char → Option (Comparison × List Char)
  | '=' :: '=' :: rest => some (.equal, rest)
  | '!' :: '=' :: rest => some (.unequal, rest)
  | '<' :: '=' :: rest => some (.lessOrEqual, rest)
  | '>' :: '=' :: rest => some (.greaterOrEqual, rest)
  | '<' :: rest => some (.less, rest)
  | '>' :: rest => some (.greater, rest)
  | _ => none

/-- Reads the name of a function and its opening parenthesis. -/
def parseCallName (cs : List Char) : Option (String × List Char) :=
  match cs with
  | c :: rest =>
    if c.isLower then
      let (more, rest) := rest.span fun c => c.isLower || c.isDigit || c = '_'
      match rest with
      | '(' :: rest => some (String.ofList (c :: more), skipBlanks rest)
      | _ => none
    else none
  | [] => none

/-- Drops blanks and a character behind them. -/
def expect (c : Char) (cs : List Char) : Option (List Char) :=
  match skipBlanks cs with
  | d :: rest => if d = c then some rest else none
  | [] => none

mutual

/-- Reads the segments of a query, blanks standing before each. -/
def parseSegments : Nat → List Char → Option (List Segment × List Char)
  | 0, _ => none
  | fuel + 1, cs =>
    match skipBlanks cs with
    | '[' :: rest => do
      let (selectors, rest) ← parseSelectors fuel (skipBlanks rest)
      let (more, rest) ← parseSegments fuel rest
      some (.child selectors :: more, rest)
    | '.' :: '.' :: '[' :: rest => do
      let (selectors, rest) ← parseSelectors fuel (skipBlanks rest)
      let (more, rest) ← parseSegments fuel rest
      some (.descendant selectors :: more, rest)
    | '.' :: '.' :: '*' :: rest => do
      let (more, rest) ← parseSegments fuel rest
      some (.descendant [.wildcard] :: more, rest)
    | '.' :: '.' :: rest => do
      let (name, rest) ← parseName rest
      let (more, rest) ← parseSegments fuel rest
      some (.descendant [.name name] :: more, rest)
    | '.' :: '*' :: rest => do
      let (more, rest) ← parseSegments fuel rest
      some (.child [.wildcard] :: more, rest)
    | '.' :: rest => do
      let (name, rest) ← parseName rest
      let (more, rest) ← parseSegments fuel rest
      some (.child [.name name] :: more, rest)
    | _ => some ([], cs)

/-- Reads selectors up to the closing bracket. -/
def parseSelectors : Nat → List Char → Option (List Selector × List Char)
  | 0, _ => none
  | fuel + 1, cs => do
    let (selector, rest) ← parseSelector fuel cs
    match skipBlanks rest with
    | ']' :: rest => some ([selector], rest)
    | ',' :: rest =>
      let (more, rest) ← parseSelectors fuel (skipBlanks rest)
      some (selector :: more, rest)
    | _ => none

/-- Reads a selector. -/
def parseSelector : Nat → List Char → Option (Selector × List Char)
  | 0, _ => none
  | fuel + 1, cs =>
    match cs with
    | '*' :: rest => some (.wildcard, rest)
    | '?' :: rest => (parseOr fuel (skipBlanks rest)).map fun r => (.filter r.1, r.2)
    | '\'' :: _ => (parseString cs).map fun r => (.name r.1, r.2)
    | '"' :: _ => (parseString cs).map fun r => (.name r.1, r.2)
    | cs => parseIndexOrSlice cs

/-- Reads a query that starts at the root or at the current node. -/
def parseQuery : Nat → List Char → Option (Query × List Char)
  | 0, _ => none
  | fuel + 1, cs =>
    match cs with
    | '$' :: rest => (parseSegments fuel rest).map fun r => (.ofRoot r.1, r.2)
    | '@' :: rest => (parseSegments fuel rest).map fun r => (.ofCurrent r.1, r.2)
    | _ => none

/-- Reads conditions of which one must hold. -/
def parseOr : Nat → List Char → Option (Condition × List Char)
  | 0, _ => none
  | fuel + 1, cs => do
    let (left, rest) ← parseAnd fuel cs
    match skipBlanks rest with
    | '|' :: '|' :: more =>
      let (right, rest) ← parseOr fuel (skipBlanks more)
      some (.or left right, rest)
    | _ => some (left, rest)

/-- Reads conditions all of which must hold. -/
def parseAnd : Nat → List Char → Option (Condition × List Char)
  | 0, _ => none
  | fuel + 1, cs => do
    let (left, rest) ← parseBasic fuel cs
    match skipBlanks rest with
    | '&' :: '&' :: more =>
      let (right, rest) ← parseAnd fuel (skipBlanks more)
      some (.and left right, rest)
    | _ => some (left, rest)

/-- Reads a condition without operators between conditions. -/
def parseBasic : Nat → List Char → Option (Condition × List Char)
  | 0, _ => none
  | fuel + 1, cs =>
    match cs with
    | '!' :: rest => (parseTest fuel (skipBlanks rest)).map fun r => (.not r.1, r.2)
    | '(' :: _ => parseTest fuel cs
    | cs => (parseRelation fuel cs).orElse fun _ => parseTest fuel cs

/-- Reads a condition in parentheses, the test whether a query has nodes, or a function that gives a
truth value. -/
def parseTest : Nat → List Char → Option (Condition × List Char)
  | 0, _ => none
  | fuel + 1, cs =>
    match cs with
    | '(' :: rest => do
      let (condition, rest) ← parseOr fuel (skipBlanks rest)
      some (condition, ← expect ')' rest)
    | '$' :: _ => (parseQuery fuel cs).map fun r => (.exists r.1, r.2)
    | '@' :: _ => (parseQuery fuel cs).map fun r => (.exists r.1, r.2)
    | cs => do
      let (name, rest) ← parseCallName cs
      let whole ← match name with
        | "match" => some true
        | "search" => some false
        | _ => none
      let (text, rest) ← parseOperand fuel rest
      let (pattern, rest) ← parseOperand fuel (skipBlanks (← expect ',' rest))
      some (.matches whole text pattern, ← expect ')' rest)

/-- Reads a comparison. -/
def parseRelation : Nat → List Char → Option (Condition × List Char)
  | 0, _ => none
  | fuel + 1, cs => do
    let (left, rest) ← parseOperand fuel cs
    let (op, rest) ← parseComparison (skipBlanks rest)
    let (right, rest) ← parseOperand fuel (skipBlanks rest)
    some (.compare op left right, rest)

/-- Reads a value: a literal, a query for at most one node, or a function that gives a value. -/
def parseOperand : Nat → List Char → Option (Operand × List Char)
  | 0, _ => none
  | fuel + 1, cs =>
    match cs with
    | '$' :: _ => do
      let (query, rest) ← parseQuery fuel cs
      if query.isSingular then some (.node query, rest) else none
    | '@' :: _ => do
      let (query, rest) ← parseQuery fuel cs
      if query.isSingular then some (.node query, rest) else none
    | cs =>
      match parseCallName cs with
      | none => (parseLiteral cs).map fun r => (.literal r.1, r.2)
      | some (name, rest) =>
        match name with
        | "length" => do
          let (operand, rest) ← parseOperand fuel rest
          some (.length operand, ← expect ')' rest)
        | "count" => do
          let (query, rest) ← parseQuery fuel rest
          some (.count query, ← expect ')' rest)
        | "value" => do
          let (query, rest) ← parseQuery fuel rest
          some (.value query, ← expect ')' rest)
        | _ => none

end

/-- Reads a whole query, which starts at the root. -/
def Query.parse? (text : String) : Option Query :=
  match text.toList with
  | '$' :: rest =>
    match parseSegments (4 * rest.length + 16) rest with
    | some (segments, []) => some (.ofRoot segments)
    | _ => none
  | _ => none

end HttpContract.JsonPath
