/-!
# Text.Utf8 — reading bytes that may not be text

Bytes that are meant as text but are none are read with marks in the place of what cannot be read:
one mark for the longest start of a character that is not completed, or for a byte that starts none.
-/

namespace HttpContract.Text.Utf8

/-- The mark for what cannot be read. -/
def mark : Char := '\ufffd'

/-- Whether a byte goes on with a character. -/
def continues (b : UInt8) : Bool := 0x80 ≤ b && b ≤ 0xbf

/-- Whether a second byte may follow the first one of a character of three bytes. -/
def secondOfThree (a b : UInt8) : Bool :=
  if a = 0xe0 then 0xa0 ≤ b && b ≤ 0xbf
  else if a = 0xed then 0x80 ≤ b && b ≤ 0x9f
  else continues b

/-- Whether a second byte may follow the first one of a character of four bytes. -/
def secondOfFour (a b : UInt8) : Bool :=
  if a = 0xf0 then 0x90 ≤ b && b ≤ 0xbf
  else if a = 0xf4 then 0x80 ≤ b && b ≤ 0x8f
  else continues b

/-- The lower six bits of a byte. -/
def low (b : UInt8) : Nat := b.toNat % 64

/-- How many bytes the character has that a byte starts, if it starts one. -/
def width (b : UInt8) : Nat :=
  if b < 0x80 then 1
  else if 0xc2 ≤ b && b ≤ 0xdf then 2
  else if 0xe0 ≤ b && b ≤ 0xef then 3
  else if 0xf0 ≤ b && b ≤ 0xf4 then 4
  else 0

/-- The character at the start of bytes, or a mark, and how many bytes after the first belong to it.
-/
def first (a : UInt8) (rest : List UInt8) : Char × Nat :=
  match width a, rest with
  | 1, _ => (Char.ofNat a.toNat, 0)
  | 2, b :: _ => if continues b then (Char.ofNat (a.toNat % 32 * 64 + low b), 1) else (mark, 0)
  | 3, b :: c :: _ =>
    if secondOfThree a b then
      if continues c then (Char.ofNat ((a.toNat % 16 * 64 + low b) * 64 + low c), 2) else (mark, 1)
    else (mark, 0)
  | 3, [b] => if secondOfThree a b then (mark, 1) else (mark, 0)
  | 4, b :: c :: d :: _ =>
    if secondOfFour a b then
      if continues c then
        if continues d then
          (Char.ofNat (((a.toNat % 8 * 64 + low b) * 64 + low c) * 64 + low d), 3)
        else (mark, 2)
      else (mark, 1)
    else (mark, 0)
  | 4, [b, c] =>
    if secondOfFour a b then if continues c then (mark, 2) else (mark, 1) else (mark, 0)
  | 4, [b] => if secondOfFour a b then (mark, 1) else (mark, 0)
  | _, _ => (mark, 0)

/-- Reads bytes, the first `skip` of which are read already. -/
def readAfter : Nat → List UInt8 → List Char
  | _, [] => []
  | skip + 1, _ :: rest => readAfter skip rest
  | 0, a :: rest => let (c, more) := first a rest; c :: readAfter more rest

/-- Reads bytes as text. -/
def read (bytes : List UInt8) : String := String.ofList (readAfter 0 bytes)

/-- The bytes of a text. -/
def bytes (s : String) : List UInt8 := s.toUTF8.toList

end HttpContract.Text.Utf8
