import HttpContract.Json.Parser
import HttpContract.Script.Error

/-!
# Script — from characters to tokens

`nextToken` skips blanks and comments and reads one token; it says where the text goes on.
`Tokens.ofScript` reads all tokens. A script that cannot be read to its end still has the tokens
before the flaw, so that a parser meets the flaw only where it gets that far.
-/

namespace HttpContract.Script

/-- A place in a script and the text that starts there. -/
structure Cursor where
  place : Place
  text : List Char

/-- A flaw and its place. -/
abbrev Flawed := Place × Flaw

/-! ## Blanks and comments -/

/-- What is being skipped. -/
inductive Skipping where
  | blanks
  | line
  | block (start : Place)

/-- Skips blanks and comments. A comment ends with its line or, between `/*` and `*/`, with the
latter. -/
def skip : Skipping → Place → List Char → Except Flawed Cursor
  | .blanks, p, [] => .ok ⟨p, []⟩
  | .line, p, [] => .ok ⟨p, []⟩
  | .block start, _, [] => .error (start, .unterminatedComment)
  | .blanks, p, '/' :: '/' :: rest => skip .line ((p.after '/').after '/') rest
  | .blanks, p, '/' :: '*' :: rest => skip (.block p) ((p.after '/').after '*') rest
  | .blanks, p, c :: rest =>
    if Unicode.isWhiteSpace c then skip .blanks (p.after c) rest else .ok ⟨p, c :: rest⟩
  | .line, p, c :: rest =>
    if c = '\n' then skip .blanks (p.after c) rest else skip .line (p.after c) rest
  | .block _, p, '*' :: '/' :: rest => skip .blanks ((p.after '*').after '/') rest
  | .block start, p, c :: rest => skip (.block start) (p.after c) rest

/-! ## Texts -/

/-- The character that a letter stands for behind a backslash; most stand for themselves. -/
def escaped : Char → Char
  | 'n' => '\n'
  | 't' => '\t'
  | 'r' => '\r'
  | 'b' => '\x08'
  | 'f' => '\x0c'
  | '0' => '\x00'
  | c => c

/-- The character with a code of four hexadecimal digits. Codes of surrogates stand for none. -/
def codeChar? (a b c d : Char) : Option Char := do
  let a ← Json.hexDigitValue? a
  let b ← Json.hexDigitValue? b
  let c ← Json.hexDigitValue? c
  let d ← Json.hexDigitValue? d
  let n := ((a * 16 + b) * 16 + c) * 16 + d
  if 0xd800 ≤ n ∧ n ≤ 0xdfff then none else some (Char.ofNat n)

/-- Reads a text up to the closing quote; `done` holds what was read, last character first. A
backslash before a line end is dropped with it. -/
def readString (quote : Char) (done : List Char) :
    Place → List Char → Except Flaw (String × Cursor)
  | _, [] => .error .unterminatedString
  | p, '\\' :: rest =>
    match rest with
    | [] => .error .unterminatedString
    | 'u' :: a :: b :: c :: d :: rest =>
      match codeChar? a b c d with
      | some x => readString quote (x :: done) (p.afterAll ['\\', 'u', a, b, c, d]) rest
      | none => .error .invalidEscape
    | 'u' :: _ => .error .invalidEscape
    | '\n' :: rest => readString quote done (p.afterAll ['\\', '\n']) rest
    | c :: rest => readString quote (escaped c :: done) (p.afterAll ['\\', c]) rest
  | p, c :: rest =>
    if c = '\n' then .error .unterminatedString
    else if c = quote then .ok (String.ofList done.reverse, ⟨p.after c, rest⟩)
    else readString quote (c :: done) (p.after c) rest

/-! ## Numbers -/

/-- The characters of a number at the start of a text, and the rest: digits, points and exponents in
any order. -/
def spanNumber : List Char → List Char × List Char
  | [] => ([], [])
  | c :: rest =>
    if c.isDigit ∨ c = '.' then
      let r := spanNumber rest
      (c :: r.1, r.2)
    else if c = 'e' ∨ c = 'E' then
      match rest with
      | s :: more =>
        if s = '+' ∨ s = '-' then
          let r := spanNumber more
          (c :: s :: r.1, r.2)
        else
          let r := spanNumber (s :: more)
          (c :: r.1, r.2)
      | [] => ([c], [])
    else ([], c :: rest)

/-- The value of decimal digits. -/
def digitsValue (ds : List Char) : Nat := ds.foldl (fun n d => n * 10 + (d.toNat - 48)) 0

/-- Whether a text is a sequence of digits, at least one. -/
def isDigits (cs : List Char) : Bool := !cs.isEmpty && cs.all Char.isDigit

/-- The exponent behind its letter. -/
def exponent? (cs : List Char) : Option Int :=
  match cs with
  | '-' :: ds => if isDigits ds then some (-(digitsValue ds : Int)) else none
  | '+' :: ds => if isDigits ds then some (digitsValue ds) else none
  | ds => if isDigits ds then some (digitsValue ds) else none

/-- The decimal that a text denotes: digits with at most one point and at least one digit, and an
exponent. -/
def decimal? (cs : List Char) : Option Binary64.Decimal := do
  let (mantissa, tail) := cs.span fun c => c ≠ 'e' && c ≠ 'E'
  let (whole, fraction) := mantissa.span fun c => c ≠ '.'
  let fraction := fraction.drop 1
  let exponent ← match tail with
    | [] => some 0
    | _ :: tail => exponent? tail
  if isDigits (whole ++ fraction) then
    some ⟨digitsValue (whole ++ fraction), exponent - fraction.length⟩
  else none

/-- The number that a text denotes: a whole number that fits a signed word stays whole, all others
are doubles. -/
def number? (cs : List Char) : Option Json.Number :=
  if isDigits cs && digitsValue cs < 9223372036854775808 then
    some (.integer (Json.WordInt.ofInt (digitsValue cs)))
  else (decimal? cs).bind fun d => (Binary64.ofDecimal? false d).map .float

/-! ## Tokens -/

/-- Whether a character may start an identifier. -/
def startsIdentifier (c : Char) : Bool := Unicode.isAlphabetic c || c = '_' || c = '$'

/-- Whether a character may stand in an identifier. -/
def inIdentifier (c : Char) : Bool := Unicode.isAlphanumeric c || c = '_' || c = '$'

/-- Whether a number starts with a character that is followed by a text. -/
def startsNumber (c : Char) (rest : List Char) : Bool :=
  c.isDigit || (c = '.' && (rest.head?.map Char.isDigit).getD false)

/-- Reads the token that starts with a character. -/
def readToken (p : Place) (c : Char) (rest : List Char) : Except Flawed (TokenKind × Cursor) :=
  if c = '\'' ∨ c = '"' then
    match readString c [] (p.after c) rest with
    | .ok (s, cursor) => .ok (.string s, cursor)
    | .error flaw => .error (p, flaw)
  else if startsNumber c rest then
    let (text, rest) := spanNumber (c :: rest)
    match number? text with
    | some n => .ok (.number n, ⟨p.afterAll text, rest⟩)
    | none => .error (p, .invalidNumber (String.ofList text))
  else if startsIdentifier c then
    let (more, rest) := rest.span inIdentifier
    .ok (.identifier (String.ofList (c :: more)), ⟨p.afterAll (c :: more), rest⟩)
  else
    match Symbol.ofChar? c with
    | some s => .ok (.symbol s, ⟨p.after c, rest⟩)
    | none => .error (p, .unexpectedCharacter c)

/-- Reads the next token. At the end of a script that is the token for the end, over and over. -/
def nextToken (cursor : Cursor) : Except Flawed (Token × Cursor) :=
  match skip .blanks cursor.place cursor.text with
  | .error flawed => .error flawed
  | .ok ⟨p, []⟩ => .ok (⟨.finish, p⟩, ⟨p, []⟩)
  | .ok ⟨p, c :: rest⟩ =>
    match readToken p c rest with
    | .error flawed => .error flawed
    | .ok (kind, cursor) => .ok (⟨kind, p⟩, cursor)

/-- How the reading of a script ended: at its end or at a flaw. -/
inductive Ending where
  | finished (place : Place)
  | flawed (place : Place) (flaw : Flaw)

/-- The tokens of a script up to its ending. -/
structure Tokens where
  list : List Token
  ending : Ending

/-- Reads tokens up to the ending. The first argument bounds their number. -/
def readTokens : Nat → Cursor → Tokens
  | 0, cursor => ⟨[], .finished cursor.place⟩
  | count + 1, cursor =>
    match nextToken cursor with
    | .error (place, flaw) => ⟨[], .flawed place flaw⟩
    | .ok (⟨.finish, place⟩, _) => ⟨[], .finished place⟩
    | .ok (token, cursor) =>
      let more := readTokens count cursor
      ⟨token :: more.list, more.ending⟩

/-- The tokens of a script. -/
def Tokens.ofScript (source : List Char) : Tokens :=
  readTokens (source.length + 1) ⟨{}, source⟩

end HttpContract.Script
