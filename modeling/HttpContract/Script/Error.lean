import HttpContract.Constraint.Date
import HttpContract.Script.Token

/-!
# Script.Error — why a script has no value

A script can be malformed, use a name that is unknown or out of reach, call a constructor with the
wrong arguments, exceed a limit, or export nothing.
-/

namespace HttpContract.Script

/-- How a script is malformed. -/
inductive Flaw where
  | unterminatedComment
  | unterminatedString
  | invalidEscape
  | unexpectedCharacter (c : Char)
  | invalidNumber (text : String)
  | unexpected (token : TokenKind)
  | exportsExpected (token : TokenKind)
  | numberOutOfRange
deriving DecidableEq

/-- The text of a flaw. -/
def Flaw.message : Flaw → String
  | unterminatedComment => "unterminated comment"
  | unterminatedString => "unterminated string"
  | invalidEscape => "invalid \\u escape"
  | unexpectedCharacter c => "unexpected character " ++ Text.quotedChar c
  | invalidNumber text => "invalid number " ++ Text.quoted text
  | unexpected token => "unexpected " ++ token.describe
  | exportsExpected token => "expected `exports`, found " ++ token.describe
  | numberOutOfRange => "number out of range"

/-- What is wrong with the arguments of a call. -/
inductive Misuse where
  | notLiteral (kind : String)
  | notString (v : Json)
  | notOptions (v : Json)
  | optionNotString (key : String) (v : Json)
  | optionNotNumber (key : String) (v : Json)
  | unknownType (name : String)
  | noPattern
  | badPattern
  | noPath
  | badPath
  | badDate (fault : Constraint.DateFault)
  | noChoice
  | noBranches

/-- The text of a misuse. -/
def Misuse.message : Misuse → String
  | notLiteral kind => "expected a literal, found " ++ kind
  | notString v => "expected a string, found " ++ v.text
  | notOptions v => "expected an options object, found " ++ v.text
  | optionNotString key v => "`" ++ key ++ "` must be a string, found " ++ v.text
  | optionNotNumber key v => "`" ++ key ++ "` must be a number, found " ++ v.text
  | unknownType name => "unknown type " ++ Text.quoted name
  | noPattern => "a pattern string is required"
  | badPattern => "not a regular expression, or one that is too large"
  | noPath => "a path expression is required"
  | badPath => "not a path expression"
  | badDate fault => fault.message
  | noChoice => "at least one choice is required"
  | noBranches => "expected an object with stub/test branches"

/-- What is limited. -/
inductive Resource where
  | size
  | depth
  | nodes
deriving DecidableEq

/-- The name of what is limited. -/
def Resource.name : Resource → String
  | size => "script size"
  | depth => "nesting depth"
  | nodes => "node count"

/-- Why a script has no value. -/
inductive Error where
  | malformed (place : Place) (flaw : Flaw)
  | forbidden (name : String)
  | unknownFunction (name : String)
  | unknownIdentifier (name : String)
  | misuse (function : String) (wrong : Misuse)
  | limitExceeded (resource : Resource) (max : Nat)
  | timedOut
  | noExport

/-- The text of an error. -/
def Error.message : Error → String
  | malformed place flaw =>
    "syntax error at " ++ toString place.line ++ ":" ++ toString place.column ++ ": "
      ++ flaw.message
  | forbidden name => "`" ++ name ++ "` is not available in contract scripts"
  | unknownFunction name => "unknown function `" ++ name ++ "`"
  | unknownIdentifier name => "unknown identifier `" ++ name ++ "`"
  | misuse function wrong => "invalid argument to " ++ function ++ "(): " ++ wrong.message
  | limitExceeded resource max =>
    "script exceeds the " ++ resource.name ++ " limit of " ++ toString max
  | timedOut => "script execution timed out after 0ns"
  | noExport => "script does not export a value"

end HttpContract.Script
