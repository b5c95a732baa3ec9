import HttpContract.Json.Basic

/-!
# Json — reading a value

A reader of JSON texts over the list of their characters. Each reader returns what it read and the
characters after it, or `none` for a text that is not JSON. Containers may be nested
`nestingLimit` deep. A field that is given twice keeps its first place and its last value.
-/

namespace HttpContract.Json

/-- How many containers may lie within each other. -/
def nestingLimit : Nat := 127

/-- The blanks of JSON. -/
def isBlank (c : Char) : Bool := c == ' ' || c == '\n' || c == '\t' || c == '\r'

/-- Drops blanks. -/
def skipBlanks (cs : List Char) : List Char := cs.dropWhile isBlank

/-! ## Strings -/

/-- The value of a hexadecimal digit. -/
def hexDigitValue? (c : Char) : Option Nat :=
  if c.isDigit then some (c.toNat - 48)
  else if 'a' ≤ c ∧ c ≤ 'f' then some (c.toNat - 87)
  else if 'A' ≤ c ∧ c ≤ 'F' then some (c.toNat - 55)
  else none

/-- Reads four hexadecimal digits. -/
def parseHex4 : List Char → Option (Nat × List Char)
  | a :: b :: c :: d :: rest => do
    let a ← hexDigitValue? a
    let b ← hexDigitValue? b
    let c ← hexDigitValue? c
    let d ← hexDigitValue? d
    some (((a * 16 + b) * 16 + c) * 16 + d, rest)
  | _ => none

/-- Reads the code behind `\u`; a leading surrogate needs its partner behind it. -/
def parseUnicodeEscape (cs : List Char) : Option (Char × List Char) := do
  let (n, rest) ← parseHex4 cs
  if n < 0xd800 ∨ 0xdfff < n then some (Char.ofNat n, rest)
  else if 0xdc00 ≤ n then none
  else
    match rest with
    | '\\' :: 'u' :: rest => do
      let (m, rest) ← parseHex4 rest
      if 0xdc00 ≤ m ∧ m ≤ 0xdfff then
        some (Char.ofNat (0x10000 + (n - 0xd800) * 0x400 + (m - 0xdc00)), rest)
      else none
    | _ => none

/-- The character that a one-letter escape stands for. -/
def simpleEscape? : Char → Option Char
  | '"' => some '"'
  | '\\' => some '\\'
  | '/' => some '/'
  | 'b' => some '\x08'
  | 'f' => some '\x0c'
  | 'n' => some '\n'
  | 'r' => some '\r'
  | 't' => some '\t'
  | _ => none

/-- Reads the inside of a string up to the closing quote; `done` holds what was read, last
character first. -/
def parseStringFrom : Nat → List Char → List Char → Option (String × List Char)
  | 0, _, _ => none
  | _ + 1, _, [] => none
  | fuel + 1, done, c :: rest =>
    if c = '"' then some (String.ofList done.reverse, rest)
    else if c = '\\' then
      match rest with
      | 'u' :: rest =>
        match parseUnicodeEscape rest with
        | some (c, rest) => parseStringFrom fuel (c :: done) rest
        | none => none
      | e :: rest =>
        match simpleEscape? e with
        | some c => parseStringFrom fuel (c :: done) rest
        | none => none
      | [] => none
    else if c.toNat < 32 then none
    else parseStringFrom fuel (c :: done) rest

/-- Reads a string, its opening quote being behind us. -/
def parseString (cs : List Char) : Option (String × List Char) :=
  parseStringFrom (cs.length + 1) [] cs

/-! ## Numbers -/

/-- The digits at the start of a text, and the rest. -/
def takeDigitChars (cs : List Char) : List Char × List Char := cs.span Char.isDigit

/-- Reads the exponent of a number, if there is one. -/
def parseExponent : List Char → Option (Option (Bool × List Char) × List Char)
  | c :: rest =>
    if c = 'e' ∨ c = 'E' then
      let (down, rest) := match rest with
        | '+' :: rest => (false, rest)
        | '-' :: rest => (true, rest)
        | rest => (false, rest)
      let (digits, rest) := takeDigitChars rest
      if digits.isEmpty then none else some (some (down, digits), rest)
    else some (none, c :: rest)
  | [] => some (none, [])

/-- Reads the written form of a number. -/
def parseWritten (cs : List Char) : Option (Number.Written × List Char) := do
  let (negative, rest) := match cs with
    | '-' :: rest => (true, rest)
    | rest => (false, rest)
  let (whole, rest) := takeDigitChars rest
  if whole.isEmpty || (whole.length > 1 && whole.head? == some '0') then none
  else
    let (fraction, rest) ← match rest with
      | '.' :: rest =>
        let (digits, rest) := takeDigitChars rest
        if digits.isEmpty then none else some (some digits, rest)
      | rest => some (none, rest)
    let (exponent, rest) ← parseExponent rest
    some (⟨negative, whole, fraction, exponent⟩, rest)

/-- Reads a number. -/
def parseNumber (cs : List Char) : Option (Json × List Char) := do
  let (written, rest) ← parseWritten cs
  let n ← written.value?
  some (.number n, rest)

/-! ## Values -/

mutual

/-- Reads a value; `depth` more containers may be opened. -/
def parseValue : Nat → Nat → List Char → Option (Json × List Char)
  | 0, _, _ => none
  | fuel + 1, depth, cs =>
    match skipBlanks cs with
    | [] => none
    | '"' :: rest => (parseString rest).map fun r => (.string r.1, r.2)
    | '[' :: rest =>
      if depth = 0 then none
      else
        match skipBlanks rest with
        | ']' :: rest => some (.array [], rest)
        | rest => parseItems fuel (depth - 1) [] rest
    | '\x7b' :: rest =>
      if depth = 0 then none
      else
        match skipBlanks rest with
        | '\x7d' :: rest => some (.object [], rest)
        | rest => parseFields fuel (depth - 1) [] rest
    | 'n' :: 'u' :: 'l' :: 'l' :: rest => some (.null, rest)
    | 't' :: 'r' :: 'u' :: 'e' :: rest => some (.bool true, rest)
    | 'f' :: 'a' :: 'l' :: 's' :: 'e' :: rest => some (.bool false, rest)
    | cs => parseNumber cs

/-- Reads the items of an array; `done` holds those read, last one first. -/
def parseItems : Nat → Nat → List Json → List Char → Option (Json × List Char)
  | 0, _, _, _ => none
  | fuel + 1, depth, done, cs =>
    match parseValue fuel depth cs with
    | none => none
    | some (v, rest) =>
      match skipBlanks rest with
      | ',' :: rest => parseItems fuel depth (v :: done) rest
      | ']' :: rest => some (.array (v :: done).reverse, rest)
      | _ => none

/-- Reads the fields of an object; `done` holds those read. -/
def parseFields : Nat → Nat → List (String × Json) → List Char → Option (Json × List Char)
  | 0, _, _, _ => none
  | fuel + 1, depth, done, cs =>
    match skipBlanks cs with
    | '"' :: rest =>
      match parseString rest with
      | none => none
      | some (key, rest) =>
        match skipBlanks rest with
        | ':' :: rest =>
          match parseValue fuel depth rest with
          | none => none
          | some (v, rest) =>
            match skipBlanks rest with
            | ',' :: rest => parseFields fuel depth (setField key v done) rest
            | '\x7d' :: rest => some (.object (setField key v done), rest)
            | _ => none
        | _ => none
    | _ => none

end

/-- Reads a text that holds one value and blanks around it. -/
def parse? (text : String) : Option Json :=
  let cs := text.toList
  match parseValue (2 * cs.length + 2) nestingLimit cs with
  | some (v, rest) => if (skipBlanks rest).isEmpty then some v else none
  | none => none

end HttpContract.Json
