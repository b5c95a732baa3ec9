import HttpContract.Text.Percent

/-!
# Request.Form — named values in text

Query strings and forms hold names and values, joined by equals signs and separated by ampersands. A
plus sign is a blank. Names that are given more than once are grouped.
-/

namespace HttpContract.Form

/-- Splits a text at each occurrence of a character. -/
def splitAll (mark : Char) : List Char → List (List Char)
  | [] => [[]]
  | c :: rest =>
    match splitAll mark rest with
    | [] => [[c]]
    | first :: more => if c = mark then [] :: first :: more else (c :: first) :: more

/-- Splits a text at the first occurrence of a character; without one the second part is empty. -/
def splitFirst (mark : Char) : List Char → List Char × List Char
  | [] => ([], [])
  | c :: rest =>
    if c = mark then ([], rest)
    else
      let r := splitFirst mark rest
      (c :: r.1, r.2)

/-- The text with its plus signs as blanks. -/
def withBlanks (cs : List Char) : List Char := cs.map fun c => if c = '+' then ' ' else c

/-- Decodes a name or a value. One that is not text once decoded stays as it is written. -/
def decodePart (cs : List Char) : String :=
  let spaced := String.ofList (withBlanks cs)
  (Text.Percent.decode? spaced).getD spaced

/-- The names and values in a text, in their order. -/
def parse (input : String) : List (String × String) :=
  ((splitAll '&' input.toList).filter fun part => !part.isEmpty).map fun part =>
    let (name, value) := splitFirst '=' part
    (decodePart name, decodePart value)

/-- The text of names and values. -/
def encode (pairs : List (String × String)) : String :=
  "&".intercalate (pairs.map fun p => Text.Percent.encode p.1 ++ "=" ++ Text.Percent.encode p.2)

/-- Adds a value to what a name has. -/
def extend (known : Json) (value : String) : Json :=
  match known with
  | .array items => .array (items ++ [.string value])
  | first => .array [first, .string value]

/-- Adds a named value to grouped ones. -/
def addValue (name value : String) : List (String × Json) → List (String × Json)
  | [] => [(name, .string value)]
  | (k, v) :: rest =>
    if k = name then (k, extend v value) :: rest else (k, v) :: addValue name value rest

/-- Groups values by name: a name has its value or, if it is given more than once, the list of its
values. Names keep the order in which they first appear. -/
def grouped (pairs : List (String × String)) : List (String × Json) :=
  pairs.foldl (fun fields p => addValue p.1 p.2 fields) []

end HttpContract.Form
