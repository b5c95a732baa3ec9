import HttpContract.Json.Parser

/-!
# Json.Record — records in JSON

Reading the fields of records and writing them. A field may be left out; which value stands for one
that is left out is said by its reader.

What is passed over in a record has to be written well but is not looked at: neither the size of its
numbers nor what its strings stand for counts, nor how deep it goes. So the bytes of a text are
taken apart without making values of it (`Json.Raw`). Here a byte is the character with its number.
-/

namespace HttpContract.Json

/-- A JSON text taken apart. Strings are as they stand between their quotes. -/
inductive Raw where
  | null
  | bool (b : Bool)
  | number (written : Number.Written)
  | string (inside : List Char)
  | array (items : List Raw)
  | object (fields : List (List Char × Raw))

namespace Raw

/-- Takes the inside of a string up to the closing quote; `done` holds what was taken, last
character first. -/
def takeString (done : List Char) : List Char → Option (List Char × List Char)
  | '"' :: rest => some (done.reverse, rest)
  | '\\' :: 'u' :: a :: b :: c :: d :: rest =>
    if (parseHex4 [a, b, c, d]).isSome then
      takeString (d :: c :: b :: a :: 'u' :: '\\' :: done) rest
    else none
  | '\\' :: e :: rest =>
    if (simpleEscape? e).isSome then takeString (e :: '\\' :: done) rest else none
  | c :: rest => if c.toNat < 32 then none else takeString (c :: done) rest
  | [] => none

mutual

/-- Takes a value. The first argument bounds the steps. -/
def takeValue : Nat → List Char → Option (Raw × List Char)
  | 0, _ => none
  | steps + 1, cs =>
    match skipBlanks cs with
    | '"' :: rest => (takeString [] rest).map fun r => (string r.1, r.2)
    | '[' :: rest =>
      match skipBlanks rest with
      | ']' :: rest => some (array [], rest)
      | rest => takeItems steps [] rest
    | '\x7b' :: rest =>
      match skipBlanks rest with
      | '\x7d' :: rest => some (object [], rest)
      | rest => takeFields steps [] rest
    | 'n' :: 'u' :: 'l' :: 'l' :: rest => some (null, rest)
    | 't' :: 'r' :: 'u' :: 'e' :: rest => some (bool true, rest)
    | 'f' :: 'a' :: 'l' :: 's' :: 'e' :: rest => some (bool false, rest)
    | cs => (parseWritten cs).map fun r => (number r.1, r.2)

/-- Takes the items of an array; `done` holds those taken, last one first. -/
def takeItems : Nat → List Raw → List Char → Option (Raw × List Char)
  | 0, _, _ => none
  | steps + 1, done, cs =>
    match takeValue steps cs with
    | none => none
    | some (v, rest) =>
      match skipBlanks rest with
      | ',' :: rest => takeItems steps (v :: done) rest
      | ']' :: rest => some (array (v :: done).reverse, rest)
      | _ => none

/-- Takes the fields of an object; `done` holds those taken, last one first. -/
def takeFields : Nat → List (List Char × Raw) → List Char → Option (Raw × List Char)
  | 0, _, _ => none
  | steps + 1, done, cs =>
    match skipBlanks cs with
    | '"' :: rest =>
      match takeString [] rest with
      | none => none
      | some (key, rest) =>
        match skipBlanks rest with
        | ':' :: rest =>
          match takeValue steps rest with
          | none => none
          | some (v, rest) =>
            match skipBlanks rest with
            | ',' :: rest => takeFields steps ((key, v) :: done) rest
            | '\x7d' :: rest => some (object ((key, v) :: done).reverse, rest)
            | _ => none
        | _ => none
    | _ => none

end

/-- Takes the bytes of a text apart that holds one value and blanks around it. -/
def parse? (bytes : List UInt8) : Option Raw :=
  let cs := bytes.map fun b => Char.ofNat b.toNat
  match takeValue (2 * cs.length + 2) cs with
  | some (v, rest) => if (skipBlanks rest).isEmpty then some v else none
  | none => none

/-- The text that the inside of a string stands for, if it stands for one. -/
def textOf? (inside : List Char) : Option String := do
  let written ← String.fromUTF8? ⟨(inside.map fun c => c.toNat.toUInt8).toArray⟩
  let (text, _) ← parseString (written.toList ++ ['"'])
  return text

/-- The text of a string. -/
def asString? : Raw → Option String
  | string inside => textOf? inside
  | _ => none

/-! ## Fields -/

/-- A field of an object with its name. -/
def namedField? (field : List Char × Raw) : Option (String × Raw) :=
  (textOf? field.1).map fun name => (name, field.2)

/-- The fields of a record: an object gives them by their names, each at most once, an array in the
order of the names. What has another name is passed over. An array may leave out the last ones and
must not hold more. -/
def record? (names : List String) : Raw → Option (String → Option Raw)
  | object fields => do
    let known := (← fields.mapM namedField?).filter fun field => names.contains field.1
    if (known.map (·.1)).Nodup then some fun name => known.lookup name else none
  | array items =>
    if items.length ≤ names.length then some fun name => items[names.idxOf name]? else none
  | _ => none

/-- A text; empty if it is left out. -/
def textOrEmpty? : Option Raw → Option String
  | none => some ""
  | some v => v.asString?

/-- A text that may be left out or null. -/
def optionalText? : Option Raw → Option (Option String)
  | none => some none
  | some null => some none
  | some v => v.asString?.map some

/-- A list; empty if it is left out. -/
def listOrEmpty? {α : Type} (item? : Raw → Option α) : Option Raw → Option (List α)
  | none => some []
  | some (array items) => items.mapM item?
  | some _ => none

end Raw

/-- A list of texts as an array. -/
def ofTexts (texts : List String) : Json := .array (texts.map .string)

/-- A field that is left out if there is nothing in it. -/
def optionalTextField (name : String) (text : Option String) : List (String × Json) :=
  match text with
  | none => []
  | some s => [(name, .string s)]

end HttpContract.Json
