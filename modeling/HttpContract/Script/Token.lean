import HttpContract.Json.Basic
import HttpContract.Text.Quoted

/-!
# Script.Token — the tokens of scripts

A script is a sequence of symbols, texts, numbers and identifiers. A token carries the place of its
first character, and every sequence ends with a token for the end of the script.
-/

namespace HttpContract.Script

/-- A place in a script: line and column, both from one. -/
structure Place where
  line : Nat := 1
  column : Nat := 1
deriving DecidableEq

/-- The place behind a character. -/
def Place.after (p : Place) (c : Char) : Place :=
  if c = '\n' then ⟨p.line + 1, 1⟩ else ⟨p.line, p.column + 1⟩

/-- The place behind some characters. -/
def Place.afterAll (p : Place) (cs : List Char) : Place := cs.foldl Place.after p

/-- The symbols. -/
inductive Symbol where
  | leftBrace
  | rightBrace
  | leftBracket
  | rightBracket
  | leftParen
  | rightParen
  | colon
  | comma
  | semicolon
  | dot
  | equals
  | minus
  | plus
deriving DecidableEq

/-- The character of a symbol. -/
def Symbol.char : Symbol → Char
  | leftBrace => '\x7b'
  | rightBrace => '\x7d'
  | leftBracket => '['
  | rightBracket => ']'
  | leftParen => '('
  | rightParen => ')'
  | colon => ':'
  | comma => ','
  | semicolon => ';'
  | dot => '.'
  | equals => '='
  | minus => '-'
  | plus => '+'

/-- The symbol of a character. -/
def Symbol.ofChar? : Char → Option Symbol
  | '\x7b' => some leftBrace
  | '\x7d' => some rightBrace
  | '[' => some leftBracket
  | ']' => some rightBracket
  | '(' => some leftParen
  | ')' => some rightParen
  | ':' => some colon
  | ',' => some comma
  | ';' => some semicolon
  | '.' => some dot
  | '=' => some equals
  | '-' => some minus
  | '+' => some plus
  | _ => none

/-- What a token is. -/
inductive TokenKind where
  | symbol (s : Symbol)
  | string (s : String)
  | number (n : Json.Number)
  | identifier (name : String)
  | finish
deriving DecidableEq

/-- A token as messages show it. -/
def TokenKind.describe : TokenKind → String
  | symbol s => "`" ++ String.ofList [s.char] ++ "`"
  | string s => "string " ++ Text.quoted s
  | number n => "number " ++ n.text
  | identifier name => "identifier `" ++ name ++ "`"
  | finish => "end of script"

/-- A token and the place of its first character. -/
structure Token where
  kind : TokenKind
  place : Place
deriving DecidableEq

end HttpContract.Script
