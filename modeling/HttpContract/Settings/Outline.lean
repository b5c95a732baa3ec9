import HttpContract.Json.Parser

/-!
# Settings.Outline — the text of a settings file

A settings file is JSON or an outline: lines of keys and values in which indentation stands for
braces. Both are read into one kind of tree. A scalar stands on one line, a comment starts at a
number sign after a blank, and a scalar without quotes is told apart from a quoted one, since only
the former can be a number. Readers return what they read and the characters after it, or `none`.
-/

namespace HttpContract.Settings

/-- What a settings file holds. -/
inductive Outline where
  | scalar (text : String) (plain : Bool)
  | items (vs : List Outline)
  | fields (fs : List (String × Outline))

namespace Outline

/-- What stands where nothing is written. -/
def missing : Outline := scalar "" true

/-! ## Blanks and comments -/

/-- The blanks of a line. -/
def isBlank (c : Char) : Bool := c = ' ' || c = '\t'

/-- The ends of lines. -/
def isBreak (c : Char) : Bool := c = '\n' || c = '\r'

/-- Drops the rest of a line. -/
def dropLine (cs : List Char) : List Char := cs.dropWhile fun c => !isBreak c

/-- Ends a line on which nothing but blanks and a comment may follow. -/
def endLine (cs : List Char) : Option (List Char) :=
  match cs.dropWhile isBlank with
  | [] => some []
  | c :: rest =>
    if isBreak c then some (c :: rest)
    else if c = '#' && (cs.head?.map isBlank).getD false then some (dropLine rest)
    else none

/-- Finds the next line with something on it and says how far it is indented. -/
def nextLine (comment : Bool) (indent : Nat) : List Char → Option (Nat × List Char)
  | [] => some (0, [])
  | c :: rest =>
    if isBreak c then nextLine false 0 rest
    else if comment then nextLine true indent rest
    else if c = ' ' then nextLine false (indent + 1) rest
    else if c = '\t' then none
    else if c = '#' then nextLine true indent rest
    else some (indent, c :: rest)

/-- Drops blanks, line ends and comments between braces. -/
def skipGap (spaced comment : Bool) : List Char → List Char
  | [] => []
  | c :: rest =>
    if isBreak c then skipGap true false rest
    else if comment then skipGap true true rest
    else if isBlank c then skipGap true false rest
    else if c = '#' && spaced then skipGap true true rest
    else c :: rest

/-! ## Scalars -/

/-- The character that an escape of one letter stands for. -/
def escape? : Char → Option Char
  | '0' => some '\x00'
  | 'a' => some '\x07'
  | 'b' => some '\x08'
  | 't' => some '\t'
  | '\t' => some '\t'
  | 'n' => some '\n'
  | 'v' => some '\x0b'
  | 'f' => some '\x0c'
  | 'r' => some '\r'
  | 'e' => some '\x1b'
  | ' ' => some ' '
  | '"' => some '"'
  | '/' => some '/'
  | '\\' => some '\\'
  | 'N' => some '\u0085'
  | '_' => some '\u00a0'
  | 'L' => some '\u2028'
  | 'P' => some '\u2029'
  | _ => none

/-- How many hexadecimal digits an escape has. -/
def escapeDigits? : Char → Option Nat
  | 'x' => some 2
  | 'u' => some 4
  | 'U' => some 8
  | _ => none

/-- The number that hexadecimal digits mean. -/
def hexValue? (digits : List Char) : Option Nat :=
  digits.foldlM (fun n c => (Json.hexDigitValue? c).map fun d => n * 16 + d) 0

/-- The character that a code stands for; there is none for a surrogate or beyond the last one. -/
def codeChar? (n : Nat) : Option Char := if n.isValidChar then some (Char.ofNat n) else none

/-- Reads the inside of a scalar in double quotes; `done` holds what was read, last character
first. -/
def doubleQuoted : Nat → List Char → List Char → Option (String × List Char)
  | 0, _, _ => none
  | _ + 1, _, [] => none
  | fuel + 1, done, c :: rest =>
    if c = '"' then some (String.ofList done.reverse, rest)
    else if isBreak c then none
    else if c = '\\' then
      match rest with
      | [] => none
      | e :: rest =>
        match escapeDigits? e with
        | some n =>
          if rest.length < n then none
          else
            match (hexValue? (rest.take n)).bind codeChar? with
            | some c => doubleQuoted fuel (c :: done) (rest.drop n)
            | none => none
        | none =>
          match escape? e with
          | some c => doubleQuoted fuel (c :: done) rest
          | none => none
    else doubleQuoted fuel (c :: done) rest

/-- Reads the inside of a scalar in single quotes, in which a quote is written twice. -/
def singleQuoted (done : List Char) : List Char → Option (String × List Char)
  | '\'' :: '\'' :: rest => singleQuoted ('\'' :: done) rest
  | '\'' :: rest => some (String.ofList done.reverse, rest)
  | c :: rest => if isBreak c then none else singleQuoted (c :: done) rest
  | [] => none

/-- The characters that end a scalar between braces. -/
def isFlowMark (c : Char) : Bool := [',', '[', ']', '\x7b', '\x7d'].contains c

/-- Whether a colon ends a key if this follows it. -/
def afterColon (flow : Bool) : List Char → Bool
  | [] => true
  | c :: _ => isBlank c || isBreak c || (flow && isFlowMark c)

/-- Reads a scalar without quotes and the blanks behind it; `done` holds what was read, last
character first. -/
def plainFrom (flow : Bool) (done : List Char) : List Char → List Char × List Char
  | [] => (done, [])
  | c :: rest =>
    if isBreak c || (c = ':' && afterColon flow rest) || (flow && isFlowMark c)
        || (c = '#' && (done.head?.map isBlank).getD true) then (done, c :: rest)
    else plainFrom flow (c :: done) rest

/-- The characters that no scalar without quotes starts with. -/
def indicators : List Char :=
  [',', '[', ']', '\x7b', '\x7d', '#', '&', '*', '!', '|', '>', '\'', '"', '%', '@', '\x60']

/-- Whether a scalar without quotes may start here. -/
def startsPlain (flow : Bool) : List Char → Bool
  | [] => false
  | c :: rest =>
    if c = '-' then !((rest.head?.map fun d => isBlank d || isBreak d).getD true)
    else if c = '?' || c = ':' then
      !flow && !((rest.head?.map fun d => isBlank d || isBreak d).getD true)
    else !indicators.contains c

/-- Reads a scalar and says whether it is without quotes. -/
def readScalar (flow : Bool) (cs : List Char) : Option ((String × Bool) × List Char) :=
  match cs with
  | '"' :: rest => (doubleQuoted (rest.length + 1) [] rest).map fun r => ((r.1, false), r.2)
  | '\'' :: rest => (singleQuoted [] rest).map fun r => ((r.1, false), r.2)
  | cs =>
    if startsPlain flow cs then
      let (done, rest) := plainFrom flow [] cs
      some ((String.ofList (done.dropWhile isBlank).reverse, true), done.takeWhile isBlank ++ rest)
    else none

/-! ## Between braces and brackets -/

mutual

/-- Reads a value between braces or brackets. -/
def flowValue : Nat → List Char → Option (Outline × List Char)
  | 0, _ => none
  | fuel + 1, cs =>
    match cs with
    | '\x7b' :: rest => flowFields fuel [] rest
    | '[' :: rest => flowItems fuel [] rest
    | cs => (readScalar true cs).map fun r => (scalar r.1.1 r.1.2, r.2)

/-- Reads fields up to the closing brace; `done` holds those read, last one first. -/
def flowFields : Nat → List (String × Outline) → List Char → Option (Outline × List Char)
  | 0, _, _ => none
  | fuel + 1, done, cs =>
    match skipGap false false cs with
    | '\x7d' :: rest => some (fields done.reverse, rest)
    | cs =>
      match readScalar true cs with
      | none => none
      | some (key, rest) =>
        match flowFieldValue fuel (skipGap false false rest) with
        | none => none
        | some (v, rest) =>
          match skipGap false false rest with
          | ',' :: rest => flowFields fuel ((key.1, v) :: done) rest
          | '\x7d' :: rest => some (fields ((key.1, v) :: done).reverse, rest)
          | _ => none

/-- Reads the value of a field, which may be missing. -/
def flowFieldValue : Nat → List Char → Option (Outline × List Char)
  | 0, _ => none
  | fuel + 1, cs =>
    match cs with
    | ':' :: rest =>
      match skipGap false false rest with
      | ',' :: rest => some (missing, ',' :: rest)
      | '\x7d' :: rest => some (missing, '\x7d' :: rest)
      | cs => flowValue fuel cs
    | cs => some (missing, cs)

/-- Reads items up to the closing bracket; `done` holds those read, last one first. -/
def flowItems : Nat → List Outline → List Char → Option (Outline × List Char)
  | 0, _, _ => none
  | fuel + 1, done, cs =>
    match skipGap false false cs with
    | ']' :: rest => some (items done.reverse, rest)
    | cs =>
      match flowValue fuel cs with
      | none => none
      | some (v, rest) =>
        match skipGap false false rest with
        | ',' :: rest => flowItems fuel (v :: done) rest
        | ']' :: rest => some (items (v :: done).reverse, rest)
        | _ => none

end

/-! ## Lines -/

/-- A value that ends with its line, and the next line with its indentation. -/
def endOfValue (v : Outline) (rest : List Char) : Option (Outline × Nat × List Char) := do
  let rest ← endLine rest
  let (indent, rest) ← nextLine false 0 rest
  return (v, indent, rest)

/-- Reads a key with its colon. -/
def readKey (cs : List Char) : Option (String × List Char) := do
  let (key, rest) ← readScalar false cs
  match rest.dropWhile isBlank with
  | ':' :: rest => if afterColon false rest then some (key.1, rest) else none
  | _ => none

/-- Reads a value on a line of its own or behind its key. -/
def lineValue (fuel : Nat) (cs : List Char) : Option (Outline × Nat × List Char) :=
  match cs with
  | '\x7b' :: _ => (flowValue fuel cs).bind fun r => endOfValue r.1 r.2
  | '[' :: _ => (flowValue fuel cs).bind fun r => endOfValue r.1 r.2
  | cs => (readScalar false cs).bind fun r => endOfValue (scalar r.1.1 r.1.2) r.2

mutual

/-- Reads what starts at a line of some indentation. -/
def block : Nat → Nat → List Char → Option (Outline × Nat × List Char)
  | 0, _, _ => none
  | fuel + 1, indent, cs =>
    match readKey cs with
    | some _ => blockFields fuel indent [] cs
    | none => lineValue fuel cs

/-- Reads the fields of an indentation; `done` holds those read, last one first. -/
def blockFields : Nat → Nat → List (String × Outline) → List Char →
    Option (Outline × Nat × List Char)
  | 0, _, _, _ => none
  | fuel + 1, indent, done, cs =>
    match readKey cs with
    | none => none
    | some (key, rest) =>
      match blockFieldValue fuel indent rest with
      | none => none
      | some (v, next, rest) =>
        if rest.isEmpty || next < indent then
          some (fields ((key, v) :: done).reverse, next, rest)
        else if next = indent then blockFields fuel indent ((key, v) :: done) rest
        else none

/-- Reads the value of a field: on its line, on deeper lines, or missing. -/
def blockFieldValue : Nat → Nat → List Char → Option (Outline × Nat × List Char)
  | 0, _, _ => none
  | fuel + 1, indent, cs =>
    match endLine cs with
    | none => lineValue fuel (cs.dropWhile isBlank)
    | some rest =>
      match nextLine false 0 rest with
      | none => none
      | some (next, rest) =>
        if rest.isEmpty || next ≤ indent then some (missing, next, rest)
        else block fuel next rest

end

/-- Whether a character may stand in a settings file. -/
def isAllowed (c : Char) : Bool := (32 ≤ c.toNat && c.toNat ≠ 127) || isBlank c || isBreak c

/-- Drops a line of three hyphens in front of the outline. -/
def dropStart (cs : List Char) : List Char :=
  match cs with
  | '-' :: '-' :: '-' :: rest => (endLine rest).getD cs
  | cs => cs

/-- Reads the text of a settings file. -/
def parse? (text : String) : Option Outline := do
  let cs := text.toList
  if !cs.all isAllowed then none
  let (indent, rest) ← nextLine false 0 cs
  let (indent, rest) ← nextLine false indent (dropStart rest)
  if rest.isEmpty then return missing
  match ← block (3 * cs.length + 3) indent rest with
  | (v, _, []) => return v
  | _ => none

end Outline

end HttpContract.Settings
