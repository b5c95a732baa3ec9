import HttpContract.Pattern.Lower

/-!
# Library.Simple — a library of short lists of words

Filler texts and personal data are put together from short lists of words. A text that a pattern
matches is drawn from the pattern itself: a character from each set, a branch of each choice, a
number of rounds for each repetition. Patterns that ask for a position cannot be drawn from, nor
those that hold an empty set.
-/

namespace HttpContract

/-! ## Patterns -/

namespace Pattern

/-- The bytes that the automaton of one character set takes up, about. -/
def setWeight (s : CharSet) : Nat :=
  if s.isAscii then 32 + 8 * s.ranges.length else 256 + 26 * s.ranges.length

/-- The bytes that the automaton of a pattern takes up, about: a repetition is written out. -/
def weight : Pattern → Nat
  | empty => 0
  | oneOf s => if s.size = 1 then 32 else setWeight s
  | assert _ => 32
  | seq p q => p.weight + q.weight
  | alt p q => p.weight + q.weight + 32
  | .repeat p least most => p.weight * max 1 (max least (most.getD 0)) + 32

/-- Patterns whose automaton would take up more bytes than this are refused. -/
def weightLimit : Nat := 10 * 1048576

/-- The number of branches of a choice, choices within choices counted out. -/
def branches : Pattern → Nat
  | alt p q => p.branches + q.branches
  | _ => 1

/-- Whether texts can be drawn for the pattern. -/
def drawable : Pattern → Bool
  | empty => true
  | oneOf s => s.size != 0
  | assert _ => false
  | seq p q => p.drawable && q.drawable
  | alt p q => p.drawable && q.drawable
  | .repeat p _ _ => p.drawable

/-- Draws a text of a number of rounds. -/
def drawTimes (draw : Sampler (List Char)) (n : Nat) : Sampler (List Char) := do
  let rounds ← Sampler.times n draw
  return rounds.flatten

/-- Draws a text that the pattern matches. A repetition without an upper bound takes so many rounds
beyond the least at most. -/
def draw (extra : Nat) : Pattern → Sampler (List Char)
  | empty => return []
  | oneOf s => do
    let i ← Sampler.below s.size
    return (s.nth? i).toList
  | assert _ => return []
  | seq p q => do
    let first ← p.draw extra
    let second ← q.draw extra
    return first ++ second
  | alt p q => do
    let i ← Sampler.below (p.branches + q.branches)
    if i < p.branches then p.draw extra else q.draw extra
  | .repeat p least most => do
    let rounds ← Sampler.below (most.getD (least + extra) - least + 1)
    drawTimes (p.draw extra) (least + rounds)

end Pattern

namespace Library.Simple

/-- Whether a pattern is small enough. -/
def allowsPattern (source : String) : Bool :=
  match Pattern.parse? source with
  | some p => p.weight ≤ Pattern.weightLimit
  | none => false

/-- Draws a text that a pattern matches. -/
def matchingText (source : String) (extra : Nat) : Except String (Sampler String) :=
  match Pattern.parse? source with
  | none => .error "no pattern"
  | some p =>
    if p.drawable then .ok (do return String.ofList (← p.draw extra))
    else .error "no text can be drawn for the pattern"

/-! ## Words -/

/-- The words of filler text. -/
def vocabulary : List String :=
  ["lorem", "ipsum", "dolor", "sit", "amet", "consectetur", "adipiscing", "elit", "sed", "do",
    "eiusmod", "tempor", "incididunt", "ut", "labore", "et", "dolore", "magna", "aliqua"]

/-- First names. -/
def firstNames : List String := ["Ada", "Boris", "Clara", "Dmitri", "Elena", "Felix", "Greta"]

/-- Last names. -/
def lastNames : List String := ["Abbott", "Berger", "Castillo", "Dunn", "Ericson", "Farrell"]

/-- Streets. -/
def streets : List String := ["Main Street", "Oak Avenue", "Mill Lane", "Station Road"]

/-- Hosts of mailboxes. -/
def hosts : List String := ["example.com", "example.org", "example.net"]

/-- Draws a word. -/
def word : Sampler String := Sampler.choose "lorem" vocabulary

/-- Draws so many of something, at least the first number and fewer than the second. -/
def several {α : Type} (draw : Sampler α) (least limit : Nat) : Sampler (List α) := do
  let more ← Sampler.below (limit - least)
  Sampler.times (least + more) draw

/-- A word with a capital letter. -/
def capitalized (word : String) : String :=
  match word.toList with
  | [] => word
  | c :: rest => String.ofList (c.toUpper :: rest)

/-- Draws a sentence. -/
def sentence (least limit : Nat) : Sampler String := do
  match ← several word least limit with
  | [] => return "."
  | first :: rest => return " ".intercalate (capitalized first :: rest) ++ "."

/-- Draws sentences that make a paragraph. -/
def paragraph : Sampler String := do
  return " ".intercalate (← several (sentence 4 10) 2 5)

/-- Draws so many decimal digits, the first of them not being zero. -/
def digits (count : Nat) : Sampler String := do
  let least := Nat.pow 10 (count - 1)
  let n ← Sampler.below (9 * least)
  return toString (least + n)

/-- Draws a name. -/
def personName : Sampler String := do
  let first ← Sampler.choose "Ada" firstNames
  let last ← Sampler.choose "Abbott" lastNames
  return first ++ " " ++ last

/-- Draws an address of mail. -/
def mailAddress : Sampler String := do
  let mailbox ← word
  let host ← Sampler.choose "example.com" hosts
  return mailbox ++ (← digits 3) ++ "@" ++ host

/-- Draws a telephone number. -/
def phoneNumber : Sampler String := do
  let area ← digits 3
  let exchange ← digits 3
  return area ++ "-" ++ exchange ++ "-" ++ (← digits 4)

/-! ## Doubles -/

/-- The point so far on the way from one double to another, in parts of the way. -/
def onTheWay (lo hi : Binary64) (part parts : Nat) : Binary64 :=
  .ofSignedUnits (lo.units * (parts - part : Nat) + hi.units * part) parts

/-- Draws a double of a range: the start of the range stands in for what rounding takes out of it.
-/
def double (lo hi : Binary64) :
    Sampler { x : Binary64 // lo.less hi → lo.atMost x ∧ x.less hi } := do
  let part ← Sampler.below 4503599627370496
  let x := onTheWay lo hi part 4503599627370496
  if h : lo.atMost x ∧ x.less hi then return ⟨x, fun _ => h⟩
  else return ⟨lo, fun h => ⟨by simp [Binary64.atMost], h⟩⟩

end Library.Simple

/-- A library of short lists of words. -/
@[reducible] def Library.simple : Library where
  allowsPattern := Library.Simple.allowsPattern
  matchingText := Library.Simple.matchingText
  word := Library.Simple.word
  words := Library.Simple.several Library.Simple.word
  sentence := Library.Simple.sentence
  paragraphs := Library.Simple.several Library.Simple.paragraph
  personName := Library.Simple.personName
  mailAddress := Library.Simple.mailAddress
  phoneNumber := Library.Simple.phoneNumber
  buildingNumber := Library.Simple.digits 3
  streetName := Sampler.choose "Main Street" Library.Simple.streets
  double := Library.Simple.double

end HttpContract
