import HttpContract.Unicode.Category
import HttpContract.Unicode.Property

/-!
# Unicode — derived properties of characters

The classes of characters that the rest of the library asks about, each a union of general
categories and contributory properties. ASCII characters are answered without a table.
-/

namespace HttpContract.Unicode

/-- Whether a code point lies in one of the ranges. -/
def within (ranges : List Range) (n : Nat) : Bool :=
  ranges.any fun r => r.1 ≤ n && n ≤ r.2

/-- All letters. -/
def letters : List (List Range) :=
  [Category.lowercaseLetter, Category.otherLetter, Category.uppercaseLetter,
    Category.modifierLetter, Category.titlecaseLetter]

/-- Letters, letter numbers and the marks that act as letters. -/
def alphabetic : List (List Range) :=
  letters ++ [Category.letterNumber, Property.otherAlphabetic]

/-- All numbers. -/
def numbers : List (List Range) :=
  [Category.decimalNumber, Category.letterNumber, Category.otherNumber]

/-- All marks. -/
def marks : List (List Range) :=
  [Category.nonspacingMark, Category.spacingMark, Category.enclosingMark]

/-- The two characters that join their neighbours. -/
def joinControl : List Range := [(0x200c, 0x200d)]

/-- The characters of words. -/
def word : List (List Range) :=
  alphabetic ++ marks ++ [Category.decimalNumber, Category.connectorPunctuation, joinControl]

/-- Characters that join the grapheme before them. -/
def graphemeExtend : List (List Range) :=
  [Category.nonspacingMark, Category.enclosingMark, Property.otherGraphemeExtend]

/-- All characters with a visible form, in the order in which text most often has them. -/
def visible : List (List Range) :=
  letters ++ numbers ++ marks ++
    [Category.connectorPunctuation, Category.dashPunctuation, Category.openPunctuation,
      Category.closePunctuation, Category.initialPunctuation, Category.finalPunctuation,
      Category.otherPunctuation, Category.mathSymbol, Category.currencySymbol,
      Category.modifierSymbol, Category.otherSymbol]

/-- Whether one of the lists holds a code point. -/
def withinAny (lists : List (List Range)) (n : Nat) : Bool :=
  lists.any fun ranges => within ranges n

/-- Letters and what counts as letters. -/
def isAlphabetic (c : Char) : Bool :=
  if c.toNat < 128 then c.isAlpha else withinAny alphabetic c.toNat

/-- Characters with a numeric meaning. -/
def isNumeric (c : Char) : Bool :=
  if c.toNat < 128 then c.isDigit else withinAny numbers c.toNat

/-- Alphabetic or numeric characters. -/
def isAlphanumeric (c : Char) : Bool := isAlphabetic c || isNumeric c

/-- White space, line ends included. -/
def isWhiteSpace (c : Char) : Bool :=
  if c.toNat < 128 then c == ' ' || (9 ≤ c.toNat && c.toNat ≤ 13)
  else within Property.whiteSpace c.toNat

/-- Characters of words. -/
def isWord (c : Char) : Bool :=
  if c.toNat < 128 then c.isAlphanum || c == '_' else withinAny word c.toNat

/-- Characters that join the grapheme before them. -/
def isGraphemeExtend (c : Char) : Bool :=
  if c.toNat < 128 then false else withinAny graphemeExtend c.toNat

/-- Characters that are shown as they are: visible ones and the plain space. -/
def isPrintable (c : Char) : Bool :=
  if c.toNat < 128 then 32 ≤ c.toNat && c.toNat < 127 else withinAny visible c.toNat

end HttpContract.Unicode
