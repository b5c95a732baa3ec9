import HttpContract.Unicode.Derived

/-!
# Text.Quoted — text as messages show it

Messages show texts and characters between quotes. What would not be seen, or would attach to the
quote before it, is written as an escape: control characters by a letter or by their code point,
and every character without a form of its own by its code point.
-/

namespace HttpContract.Text

/-- An escape with the code point of a character. -/
def codeEscape (c : Char) : List Char :=
  ['\\', 'u', '\x7b'] ++ Nat.toDigits 16 c.toNat ++ ['\x7d']

/-- A character as it stands between quotes of the given kind. -/
def shown (quote : Char) (c : Char) : List Char :=
  if c = '\x00' then ['\\', '0']
  else if c = '\t' then ['\\', 't']
  else if c = '\r' then ['\\', 'r']
  else if c = '\n' then ['\\', 'n']
  else if c = quote ∨ c = '\\' then ['\\', c]
  else if Unicode.isGraphemeExtend c then codeEscape c
  else if Unicode.isPrintable c then [c]
  else codeEscape c

/-- A text between double quotes. -/
def quoted (s : String) : String :=
  String.ofList ('"' :: (s.toList.flatMap (shown '"') ++ ['"']))

/-- A character between single quotes. -/
def quotedChar (c : Char) : String := String.ofList ('\'' :: (shown '\'' c ++ ['\'']))

end HttpContract.Text
