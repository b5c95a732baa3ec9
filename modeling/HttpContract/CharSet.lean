import HttpContract.Unicode.Derived
import HttpContract.Unicode.CaseFolding

/-!
# CharSet — sets of characters

A set of characters as ascending, separate ranges of code points. Every operation builds its result
with `insert`, which keeps the ranges ascending and joins those that touch, so a set has one form.
-/

namespace HttpContract

open Unicode (Range)

/-- A set of characters: ascending ranges of code points with gaps between them. -/
structure CharSet where
  ranges : List Range
deriving DecidableEq

namespace CharSet

/-- The set without characters. -/
def empty : CharSet := ⟨[]⟩

/-- Whether a code point is in the set. -/
def has (s : CharSet) (n : Nat) : Bool := Unicode.within s.ranges n

/-- Whether a character is in the set. -/
def contains (s : CharSet) (c : Char) : Bool := s.has c.toNat

/-- Puts a range into ascending ranges and joins it with those it touches. -/
def insertRange : Range → List Range → List Range
  | r, [] => [r]
  | r, s :: rest =>
    if r.2 + 1 < s.1 then r :: s :: rest
    else if s.2 + 1 < r.1 then s :: insertRange r rest
    else insertRange (min r.1 s.1, max r.2 s.2) rest

/-- Adds a range of code points. -/
def insert (r : Range) (s : CharSet) : CharSet := ⟨insertRange r s.ranges⟩

/-- The set of all characters in some ranges. -/
def ofRanges (rs : List Range) : CharSet := rs.foldr insert empty

/-- The set of all characters in some lists of ranges. -/
def ofLists (lists : List (List Range)) : CharSet :=
  lists.foldr (fun rs s => rs.foldr insert s) empty

/-- The set of one character. -/
def single (c : Char) : CharSet := ⟨[(c.toNat, c.toNat)]⟩

/-- The characters from one up to another. Surrogate code points between them are no characters. -/
def between (first last : Char) : CharSet :=
  ⟨[(first.toNat, min last.toNat 0xd7ff), (max first.toNat 0xe000, last.toNat)].filter
    fun r => r.1 ≤ r.2⟩

/-- All characters in one of two sets. -/
def union (s t : CharSet) : CharSet := s.ranges.foldr insert t

/-- The code points from `start` up to the last one that lie between ascending ranges. -/
def gapsFrom (start : Nat) : List Range → List Range
  | [] => if start ≤ 0x10ffff then [(start, 0x10ffff)] else []
  | r :: rest =>
    if start < r.1 then (start, r.1 - 1) :: gapsFrom (r.2 + 1) rest
    else gapsFrom (max start (r.2 + 1)) rest

/-- All characters outside a set. Surrogate code points are no characters and are in no set. -/
def complement (s : CharSet) : CharSet := ⟨gapsFrom 0 (s.insert (0xd800, 0xdfff)).ranges⟩

/-- All characters in both of two sets. -/
def inter (s t : CharSet) : CharSet := (s.complement.union t.complement).complement

/-- All characters of the first set that are not in the second. -/
def diff (s t : CharSet) : CharSet := s.inter t.complement

/-- All characters in exactly one of two sets. -/
def symmDiff (s t : CharSet) : CharSet := (s.diff t).union (t.diff s)

/-- The number of characters in the set. -/
def size (s : CharSet) : Nat := s.ranges.foldr (fun r n => (r.2 + 1 - r.1) + n) 0

/-- The character with a given place among ascending ranges. -/
def nthOf : List Range → Nat → Option Char
  | [], _ => none
  | r :: rest, i =>
    if i < r.2 + 1 - r.1 then some (Char.ofNat (r.1 + i)) else nthOf rest (i - (r.2 + 1 - r.1))

/-- The character with a given place in the set. -/
def nth? (s : CharSet) (i : Nat) : Option Char := nthOf s.ranges i

/-- Whether the set holds ASCII characters only. -/
def isAscii (s : CharSet) : Bool := s.ranges.all fun r => r.2 < 128

/-! ## Case -/

/-- Adds every character that folds to the same character as one of the set. -/
def foldCase (s : CharSet) : CharSet :=
  let pairs := Unicode.CaseFolding.pairs
  let withTargets :=
    pairs.foldl (fun t p => if s.has p.1 then t.insert (p.2, p.2) else t) s
  pairs.foldl (fun t p => if withTargets.has p.2 then t.insert (p.1, p.1) else t) withTargets

/-- Adds the other case of every ASCII letter of the set. -/
def foldAsciiCase (s : CharSet) : CharSet :=
  (List.range 26).foldl (fun t i =>
    if s.has (65 + i) || s.has (97 + i) then (t.insert (65 + i, 65 + i)).insert (97 + i, 97 + i)
    else t) s

/-! ## Named sets -/

/-- All characters. -/
def any : CharSet := complement empty

/-- The characters of words. -/
def word : CharSet := ofLists Unicode.word

/-- Decimal digits. -/
def digit : CharSet := ofRanges Unicode.Category.decimalNumber

/-- White space. -/
def whiteSpace : CharSet := ofRanges Unicode.Property.whiteSpace

/-- ASCII characters of words. -/
def asciiWord : CharSet := ofRanges [(48, 57), (65, 90), (95, 95), (97, 122)]

/-- ASCII digits. -/
def asciiDigit : CharSet := ofRanges [(48, 57)]

/-- ASCII white space. -/
def asciiWhiteSpace : CharSet := ofRanges [(9, 13), (32, 32)]

end CharSet

end HttpContract
