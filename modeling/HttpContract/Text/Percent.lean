import HttpContract.Json.Parser
import HttpContract.Json.Printer

/-!
# Text.Percent — percent encoding

Text in addresses and forms: every byte but those of ASCII letters, digits and four marks is written
as a percent sign and two hexadecimal digits. Decoding keeps a percent sign that no two digits
follow, and fails if the bytes are not text.
-/

namespace HttpContract.Text.Percent

/-- Whether a character stands for itself. -/
def isPlain (c : Char) : Bool :=
  c.isUpper || c.isLower || c.isDigit || c = '-' || c = '_' || c = '.' || c = '~'

/-- A capital hexadecimal digit. -/
def hexDigit (n : Nat) : Char := if n < 10 then Char.ofNat (48 + n) else Char.ofNat (55 + n)

/-- A byte as a percent sign and two digits. -/
def escapeByte (b : UInt8) : List Char :=
  ['%', hexDigit (b.toNat / 16), hexDigit (b.toNat % 16)]

/-- A character as it stands in encoded text. -/
def encodeChar (c : Char) : List Char :=
  if isPlain c then [c] else (String.utf8EncodeChar c).flatMap escapeByte

/-- The characters of encoded text. -/
def encodeChars (cs : List Char) : List Char := cs.flatMap encodeChar

/-- The encoded text. -/
def encode (s : String) : String := String.ofList (encodeChars s.toList)

/-- The bytes that encoded text stands for. -/
def decodeBytes : List Char → List UInt8
  | [] => []
  | '%' :: a :: b :: rest =>
    match Json.hexDigitValue? a, Json.hexDigitValue? b with
    | some m, some n => UInt8.ofNat (m * 16 + n) :: decodeBytes rest
    | _, _ => String.utf8EncodeChar '%' ++ decodeBytes (a :: b :: rest)
  | c :: rest => String.utf8EncodeChar c ++ decodeBytes rest

/-- The text that bytes make, if they are text. -/
def textOfBytes? (bytes : List UInt8) : Option String := String.fromUTF8? ⟨bytes.toArray⟩

/-- The text that encoded text stands for. -/
def decode? (s : String) : Option String := textOfBytes? (decodeBytes s.toList)

end HttpContract.Text.Percent
