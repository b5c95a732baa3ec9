import HttpContract.Json.Basic

/-!
# Json — the text of a value

Compact text has no blanks; laid-out text puts every member of a container on a line of its own,
two spaces further in than the container. In strings only quotes, backslashes and control
characters are escaped.
-/

namespace HttpContract.Json

/-- The hexadecimal digit of a number below sixteen. -/
def hexDigit (n : Nat) : Char := if n < 10 then Char.ofNat (48 + n) else Char.ofNat (87 + n)

/-- A character as it stands in a quoted string. -/
def escapeChar (c : Char) : List Char :=
  match c with
  | '"' => ['\\', '"']
  | '\\' => ['\\', '\\']
  | '\x08' => ['\\', 'b']
  | '\x0c' => ['\\', 'f']
  | '\n' => ['\\', 'n']
  | '\r' => ['\\', 'r']
  | '\t' => ['\\', 't']
  | c =>
    if c.toNat < 32 then ['\\', 'u', '0', '0', hexDigit (c.toNat / 16), hexDigit (c.toNat % 16)]
    else [c]

/-- A string between quotes. -/
def quotedChars (s : String) : List Char := '"' :: (s.toList.flatMap escapeChar ++ ['"'])

/-! ## Compact text -/

mutual

/-- The characters of the compact text of a value. -/
def chars : Json → List Char
  | .null => ['n', 'u', 'l', 'l']
  | .bool true => ['t', 'r', 'u', 'e']
  | .bool false => ['f', 'a', 'l', 's', 'e']
  | .number n => n.text.toList
  | .string s => quotedChars s
  | .array [] => ['[', ']']
  | .array (v :: rest) => '[' :: (chars v ++ charsAfterItem rest)
  | .object [] => ['\x7b', '\x7d']
  | .object ((k, v) :: rest) =>
    '\x7b' :: (quotedChars k ++ ':' :: (chars v ++ charsAfterField rest))
termination_by structural v => v

/-- What follows an item of an array. -/
def charsAfterItem : List Json → List Char
  | [] => [']']
  | v :: rest => ',' :: (chars v ++ charsAfterItem rest)
termination_by structural vs => vs

/-- What follows a field of an object. -/
def charsAfterField : List (String × Json) → List Char
  | [] => ['\x7d']
  | (k, v) :: rest => ',' :: (quotedChars k ++ ':' :: (chars v ++ charsAfterField rest))
termination_by structural fs => fs

end

/-- The compact text of a value. -/
def text (v : Json) : String := String.ofList (chars v)

/-! ## Laid-out text -/

/-- The start of a line at a level of nesting. -/
def newLine (level : Nat) : List Char := '\n' :: List.replicate (2 * level) ' '

mutual

/-- The characters of the laid-out text of a value at a level of nesting. -/
def laidOut (level : Nat) : Json → List Char
  | .null => ['n', 'u', 'l', 'l']
  | .bool true => ['t', 'r', 'u', 'e']
  | .bool false => ['f', 'a', 'l', 's', 'e']
  | .number n => n.text.toList
  | .string s => quotedChars s
  | .array [] => ['[', ']']
  | .array (v :: rest) =>
    '[' :: (newLine (level + 1) ++ laidOut (level + 1) v ++ laidOutItems level rest)
  | .object [] => ['\x7b', '\x7d']
  | .object ((k, v) :: rest) =>
    '\x7b' :: (newLine (level + 1) ++ quotedChars k ++ [':', ' '] ++ laidOut (level + 1) v
      ++ laidOutFields level rest)
termination_by structural v => v

/-- What follows an item of an array at a level of nesting. -/
def laidOutItems (level : Nat) : List Json → List Char
  | [] => newLine level ++ [']']
  | v :: rest => ',' :: (newLine (level + 1) ++ laidOut (level + 1) v ++ laidOutItems level rest)
termination_by structural vs => vs

/-- What follows a field of an object at a level of nesting. -/
def laidOutFields (level : Nat) : List (String × Json) → List Char
  | [] => newLine level ++ ['\x7d']
  | (k, v) :: rest =>
    ',' :: (newLine (level + 1) ++ quotedChars k ++ [':', ' '] ++ laidOut (level + 1) v
      ++ laidOutFields level rest)
termination_by structural fs => fs

end

/-- The laid-out text of a value. -/
def prettyText (v : Json) : String := String.ofList (laidOut 0 v)

/-! ## The text of a target -/

/-- What text conditions look at: a string itself, the compact text of anything else, and nothing
for null. -/
def stringForm : Json → Option String
  | .null => none
  | .string s => some s
  | v => some v.text

/-- The text that stands for a value in a header, a query or an address: a string itself, the
compact text of anything else. -/
def plainText (v : Json) : String := v.stringForm.getD "null"

end HttpContract.Json
