import HttpContract.Constraint.Error
import HttpContract.Library

/-!
# Constraint.Text — texts of a known shape

Filler texts, names and addresses are accepted by their shape alone, which says what characters may
stand where. Candidates come from libraries, which know nothing of the shapes.
-/

namespace HttpContract.Constraint

/-- The kinds of filler text. -/
inductive TextKind where
  | word
  | words
  | sentence
  | paragraphs
deriving DecidableEq

/-- The kinds of personal data. -/
inductive FakeKind where
  | name
  | email
  | phone
  | address
deriving DecidableEq

/-- An ASCII letter. -/
def isLetter (c : Char) : Bool := c.isUpper || c.isLower

/-- Whether a text has at least one character and only such ones. -/
def consistsOf (allowed : Char → Bool) (cs : List Char) : Bool := !cs.isEmpty && cs.all allowed

namespace TextKind

/-- The name of a kind of text. -/
def name : TextKind → String
  | word => "word"
  | words => "words"
  | sentence => "sentence"
  | paragraphs => "paragraphs"

/-- The kind with a name. -/
def ofName? : String → Option TextKind
  | "word" => some word
  | "words" => some words
  | "sentence" => some sentence
  | "paragraphs" => some paragraphs
  | _ => none

/-- The characters besides letters and hyphens that a kind of text may hold. -/
def marks : TextKind → List Char
  | word => []
  | words => ['\'', ' ']
  | sentence => ['\'', '"', ' ', ',', '.', '!', '?', ';']
  | paragraphs => ['\'', '"', ' ', ',', '.', '!', '?', ';', '\r', '\n']

/-- Whether a text has the shape of a kind. -/
def fits (kind : TextKind) (s : String) : Bool :=
  consistsOf (fun c => isLetter c || c = '-' || kind.marks.contains c) s.toList

/-- Draws a candidate for a kind of text. -/
def draw [Library] : TextKind → Sampler String
  | word => Library.word
  | words => do return " ".intercalate (← Library.words 3 6)
  | sentence => Library.sentence 4 10
  | paragraphs => do return "\n\n".intercalate (← Library.paragraphs 2 4)

end TextKind

namespace FakeKind

/-- The name of a kind of data. -/
def label : FakeKind → String
  | name => "name"
  | email => "email"
  | phone => "phone"
  | address => "address"

/-- Whether a text is a name: a capital letter, then letters, digits and a few marks. -/
def isName : List Char → Bool
  | [] => false
  | c :: rest =>
    c.isUpper && rest.all fun c => isLetter c || c.isDigit || ['\'', '.', ' ', '-'].contains c

/-- The part of a text before a character, and the part behind it, if it is there. -/
def splitAt? (mark : Char) : List Char → Option (List Char × List Char)
  | [] => none
  | c :: rest =>
    if c = mark then some ([], rest) else (splitAt? mark rest).map fun r => (c :: r.1, r.2)

/-- The labels of a domain. -/
def labels : List Char → List (List Char)
  | [] => [[]]
  | c :: rest =>
    match labels rest with
    | [] => [[c]]
    | first :: more => if c = '.' then [] :: first :: more else (c :: first) :: more

/-- Whether a text is an address of mail: a mailbox, an at sign and a domain of two or more
labels. -/
def isEmail (cs : List Char) : Bool :=
  match splitAt? '@' cs with
  | none => false
  | some (mailbox, domain) =>
    let parts := labels domain
    consistsOf (fun c => isLetter c || c.isDigit || ['.', '_', '%', '+', '-'].contains c) mailbox
      && 2 ≤ parts.length
      && parts.all (consistsOf fun c => isLetter c || c.isDigit || c = '-')

/-- Whether a text is a telephone number. -/
def isPhone (cs : List Char) : Bool :=
  let digits := match cs with
    | '+' :: rest => rest
    | cs => cs
  consistsOf (fun c => c.isDigit || ['x', 'X', ' ', '-', '(', ')', '.'].contains c) digits

/-- Whether a text has the shape of a kind. -/
def fits (kind : FakeKind) (s : String) : Bool :=
  match kind with
  | name => isName s.toList
  | email => isEmail s.toList
  | phone => isPhone s.toList
  | address =>
    consistsOf (fun c => c.isDigit || isLetter c || [' ', ',', '\'', '.'].contains c) s.toList

/-- Draws a candidate for a kind of data. -/
def draw [Library] : FakeKind → Sampler String
  | name => Library.personName
  | email => Library.mailAddress
  | phone => Library.phoneNumber
  | address => do
    let number ← Library.buildingNumber
    let street ← Library.streetName
    return number ++ " " ++ street

end FakeKind

/-- Draws texts until one is accepted; for `kind`, the message of a failure. -/
def Generator.textUntil (kind : String) (draw : Sampler String) (accept : String → Bool) :
    Generator Json := do
  match ← Attempt.sample (Sampler.until? accept draw Error.attempts) with
  | some s => return .string s
  | none => Attempt.fail (.noCandidate kind)

end HttpContract.Constraint
