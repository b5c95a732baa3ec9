import HttpContract.Proofs.Json.Numeral

/-!
# Json — the grammar of texts

A text of JSON as it may be written by anyone (RFC 8259), apart from how it is read. `Phrase` is
such a text as a tree: its blanks, the letters of its strings with their escapes, and the digits of
its numbers. `Phrase.chars` are its characters, and `Phrase.Denotes` tells the values that it stands
for. A number without point and exponent stands for the whole number, and every number for the
double nearest to it, as long as that is finite. A field that stands in an object several times has
its last value.
-/

namespace HttpContract.Json

open Number (Written signChars)

/-- Blanks. -/
structure Blanks where
  chars : List Char
  blank : ∀ c ∈ chars, isBlank c = true

/-! ## Strings -/

/-- A code of four hexadecimal digits. -/
structure HexCode where
  first : Char
  second : Char
  third : Char
  fourth : Char

namespace HexCode

/-- The characters of a code. -/
def chars (h : HexCode) : List Char := ['\\', 'u', h.first, h.second, h.third, h.fourth]

/-- The value of a code. -/
def value? (h : HexCode) : Option Nat := do
  let a ← hexDigitValue? h.first
  let b ← hexDigitValue? h.second
  let c ← hexDigitValue? h.third
  let d ← hexDigitValue? h.fourth
  some (((a * 16 + b) * 16 + c) * 16 + d)

end HexCode

/-- A character of a string as it is written: as it is, as a letter behind a backslash, with its
code, or with the codes of two surrogates. -/
inductive Letter where
  | plain (c : Char)
  | short (c : Char)
  | code (h : HexCode)
  | pair (high low : HexCode)

namespace Letter

/-- The characters of a letter. -/
def chars : Letter → List Char
  | plain c => [c]
  | short c => ['\\', c]
  | code h => h.chars
  | pair high low => high.chars ++ low.chars

/-- The character that a letter stands for. -/
def value? : Letter → Option Char
  | plain c => if c ≠ '"' ∧ c ≠ '\\' ∧ 32 ≤ c.toNat then some c else none
  | short c => simpleEscape? c
  | code h => do
    let n ← h.value?
    if 0xd800 ≤ n ∧ n ≤ 0xdfff then none else some (Char.ofNat n)
  | pair high low => do
    let n ← high.value?
    let m ← low.value?
    if 0xd800 ≤ n ∧ n ≤ 0xdbff ∧ 0xdc00 ≤ m ∧ m ≤ 0xdfff then
      some (Char.ofNat (0x10000 + (n - 0xd800) * 0x400 + (m - 0xdc00)))
    else none

/-- Whether a letter is the codes of two surrogates. -/
def isPair : Letter → Bool
  | pair _ _ => true
  | _ => false

/-- The characters of a string between quotes. -/
def quoted (ls : List Letter) : List Char := '"' :: (ls.flatMap chars ++ ['"'])

/-- The letters of a string spell it. -/
def Spell (ls : List Letter) (s : String) : Prop :=
  List.Forall₂ (fun l c => l.value? = some c) ls s.toList

end Letter

/-! ## Numbers -/

/-- A number as it is written. Beside its digits an exponent has a small or a capital mark, and one
that counts upwards may have a sign. -/
structure Numeral where
  written : Written
  plain : Plain written
  capital : Bool := false
  plus : Bool := false

namespace Numeral

/-- The characters behind the sign. -/
def body (u : Numeral) : List Char := u.written.bodyWith (if u.capital then 'E' else 'e') u.plus

/-- The characters of a number. -/
def chars (u : Numeral) : List Char := signChars u.written.negative ++ u.body

/-- The numbers that a number stands for. -/
inductive Denotes (u : Numeral) : Number → Prop where
  | whole {n : WordInt} (hfraction : u.written.fraction = none)
    (hexponent : u.written.exponent = none)
    (hn : n.val = if u.written.negative then -(Number.digitsValue u.written.whole : Int)
      else Number.digitsValue u.written.whole) : Denotes u (.integer n)
  | nearest {x : Binary64}
    (hx : Binary64.ofDecimal? u.written.negative u.written.decimal = some x) : Denotes u (.float x)

end Numeral

/-! ## Values -/

/-- The key of a field with the blanks around it. -/
structure Key where
  before : Blanks
  letters : List Letter
  behind : Blanks

/-- A text of JSON. Blanks may stand around every value, around keys and in empty containers. -/
inductive Phrase where
  | null
  | bool (b : Bool)
  | number (u : Numeral)
  | string (ls : List Letter)
  | array (gap : Blanks) (items : List Phrase)
  | object (gap : Blanks) (fields : List (Key × Phrase))
  | spaced (before : Blanks) (p : Phrase) (behind : Blanks)

/-- What stands between a member and those behind it. -/
def comma {α : Type} (rest : List α) : List Char := if rest.isEmpty then [] else [',']

/-- The characters of a key, the blanks around it and the colon. -/
def Key.chars (k : Key) : List Char :=
  k.before.chars ++ (Letter.quoted k.letters ++ (k.behind.chars ++ [':']))

namespace Phrase

mutual

/-- The characters of a text. -/
def chars : Phrase → List Char
  | null => ['n', 'u', 'l', 'l']
  | bool true => ['t', 'r', 'u', 'e']
  | bool false => ['f', 'a', 'l', 's', 'e']
  | number u => u.chars
  | string ls => Letter.quoted ls
  | array gap items => '[' :: (gap.chars ++ (itemChars items ++ [']']))
  | object gap fields => '\x7b' :: (gap.chars ++ (fieldChars fields ++ ['\x7d']))
  | spaced before p behind => before.chars ++ (chars p ++ behind.chars)
termination_by structural p => p

/-- The characters of items. -/
def itemChars : List Phrase → List Char
  | [] => []
  | p :: rest => chars p ++ (comma rest ++ itemChars rest)
termination_by structural items => items

/-- The characters of fields. -/
def fieldChars : List (Key × Phrase) → List Char
  | [] => []
  | (k, p) :: rest => k.chars ++ (chars p ++ (comma rest ++ fieldChars rest))
termination_by structural fields => fields

end

mutual

/-- Whether some character in a text is written with the codes of two surrogates. -/
def hasPair : Phrase → Bool
  | null => false
  | bool _ => false
  | number _ => false
  | string ls => ls.any Letter.isPair
  | array _ items => itemsHavePair items
  | object _ fields => fieldsHavePair fields
  | spaced _ p _ => hasPair p
termination_by structural p => p

/-- Whether there is such a character in items. -/
def itemsHavePair : List Phrase → Bool
  | [] => false
  | p :: rest => hasPair p || itemsHavePair rest
termination_by structural items => items

/-- Whether there is such a character in fields. -/
def fieldsHavePair : List (Key × Phrase) → Bool
  | [] => false
  | (k, p) :: rest => k.letters.any Letter.isPair || hasPair p || fieldsHavePair rest
termination_by structural fields => fields

end

mutual

/-- The values that a text stands for. -/
inductive Denotes : Phrase → Json → Prop where
  | null : Denotes null .null
  | bool (b : Bool) : Denotes (bool b) (.bool b)
  | number {u : Numeral} {n : Number} (h : u.Denotes n) : Denotes (number u) (.number n)
  | string {ls : List Letter} {s : String} (h : Letter.Spell ls s) :
    Denotes (string ls) (.string s)
  | array {items : List Phrase} {vs : List Json} (gap : Blanks) (h : ItemsDenote items vs) :
    Denotes (array gap items) (.array vs)
  | object {fields : List (Key × Phrase)} {fs : List (String × Json)} (gap : Blanks)
    (h : FieldsDenote fields fs) :
    Denotes (object gap fields) (.object (fs.foldl (fun done f => setField f.1 f.2 done) []))
  | spaced {p : Phrase} {v : Json} (before behind : Blanks) (h : Denotes p v) :
    Denotes (spaced before p behind) v

/-- The values that items stand for. -/
inductive ItemsDenote : List Phrase → List Json → Prop where
  | nil : ItemsDenote [] []
  | cons {p : Phrase} {v : Json} {items : List Phrase} {vs : List Json} (h : Denotes p v)
    (hrest : ItemsDenote items vs) : ItemsDenote (p :: items) (v :: vs)

/-- The keys and values that fields stand for. -/
inductive FieldsDenote : List (Key × Phrase) → List (String × Json) → Prop where
  | nil : FieldsDenote [] []
  | cons {key : Key} {k : String} {p : Phrase} {v : Json} {fields : List (Key × Phrase)}
    {fs : List (String × Json)} (hkey : Letter.Spell key.letters k) (h : Denotes p v)
    (hrest : FieldsDenote fields fs) : FieldsDenote ((key, p) :: fields) ((k, v) :: fs)

end

end Phrase

end HttpContract.Json
