import HttpContract.Constraint.Date
import HttpContract.Constraint.Number
import HttpContract.Constraint.Text
import HttpContract.Constraint.Uuid
import HttpContract.Json.Equality
import HttpContract.Pattern.Lower
import HttpContract.Pattern.Match

/-!
# Constraint.Matcher — conditions on single values

A matcher says which values are accepted, how a value is drawn, and how it is written in a script as
a call. Conditions on texts look at the text form of a value.
-/

namespace HttpContract.Constraint

open Calendar (Instant)

/-- A condition that a text matches a pattern as a whole. -/
structure PatternRule where
  source : String
  anchored : Pattern
deriving DecidableEq

namespace PatternRule

/-- The condition with a pattern, if it is one: the pattern must match between the start and the end
of the text. -/
def ofSource? [Library] (source : String) : Option PatternRule :=
  (Pattern.compile? ("^(?:" ++ source ++ ")$")).map fun p => ⟨source, p⟩

/-- Whether a value's text matches. -/
def accepts (r : PatternRule) (v : Json) : Bool :=
  match v.stringForm with
  | some s => r.anchored.isMatch s.toList
  | none => false

/-- Drops the end of text at the end of a pattern; behind a backslash it is a character. -/
def dropFinalAnchor (cs : List Char) : List Char :=
  match cs.reverse with
  | '$' :: '\\' :: _ => cs
  | '$' :: rest => rest.reverse
  | _ => cs

/-- The pattern that texts are drawn for: without the start of text before and the end behind it. -/
def drawnSource (source : String) : String :=
  let cs := match source.toList with
    | '^' :: rest => rest
    | cs => cs
  String.ofList (dropFinalAnchor cs)

/-- How many rounds a repetition without an upper bound takes at most in texts that are drawn. -/
def mostRounds : Nat := 8

/-- Draws a text that matches. -/
def draw [Library] (r : PatternRule) : Generator Json :=
  match Library.matchingText (drawnSource r.source) mostRounds with
  | .error reason => Attempt.fail (.notDrawable reason)
  | .ok text => do return .string (← Attempt.sample text)

end PatternRule

/-- A condition on a single value. -/
inductive Matcher where
  | regex (rule : PatternRule)
  | number (kind : NumberKind) (bounds : Bounds)
  | date (rule : DateRule)
  | text (kind : Option TextKind)
  | fake (kind : FakeKind)
  | uuid4
  | anyOf (choices : List Json)
  | notAnyOf (choices : List Json)
deriving DecidableEq

namespace Matcher

/-- The name of the kind of a matcher. -/
def kind : Matcher → String
  | regex _ => "regex"
  | number kind _ => kind.name
  | date _ => "date"
  | text _ => "text"
  | fake kind => kind.label
  | uuid4 => "uuid4"
  | anyOf _ => "anyOf"
  | notAnyOf _ => "notAnyOf"

/-- What a matcher can be used for. -/
def capabilities : Matcher → Capabilities
  | notAnyOf _ => ⟨false, true, false⟩
  | _ => ⟨false, true, true⟩

/-! ## Accepting -/

/-- Whether a value is one of some choices. -/
def isChoice (choices : List Json) (v : Json) : Bool := choices.any fun choice => choice.agrees v

/-- The kind of filler text of a condition that may leave it open. -/
def textKind (kind : Option TextKind) : TextKind := kind.getD .words

/-- Whether the text form of a value passes a test. -/
def acceptsText (test : String → Bool) (v : Json) : Bool :=
  match v.stringForm with
  | some s => test s
  | none => false

/-- Whether a value is accepted. -/
def accepts (m : Matcher) (v : Json) : Bool :=
  match m with
  | regex rule => rule.accepts v
  | number kind bounds => bounds.accepts kind v
  | date rule => rule.accepts v
  | text kind => acceptsText (textKind kind).fits v
  | fake kind => acceptsText kind.fits v
  | uuid4 =>
    match v with
    | .string s => Uuid.isUuid s
    | _ => false
  | anyOf choices => isChoice choices v
  | notAnyOf choices => !isChoice choices v

/-! ## Generating -/

/-- Draws one of some choices. -/
def drawChoice : List Json → Generator Json
  | [] => Attempt.fail .noChoice
  | first :: rest => Attempt.sample (Sampler.choose first (first :: rest))

/-- Draws a value that is accepted. -/
def draw [Library] (m : Matcher) (now : Instant) : Generator Json :=
  match m with
  | regex rule => rule.draw
  | number kind bounds => bounds.draw kind
  | date rule => rule.draw now
  | text kind => Generator.textUntil "text" (textKind kind).draw (textKind kind).fits
  | fake kind => Generator.textUntil kind.label kind.draw kind.fits
  | uuid4 => do
    let s ← Attempt.sample Uuid.draw
    return .string s
  | anyOf choices => drawChoice choices
  | notAnyOf _ => Attempt.fail (.unsupported "notAnyOf" .mock)

/-! ## Writing -/

/-- A call with the given name and the text of its arguments. -/
def call (name : String) (arguments : List Char) : List Char :=
  name.toList ++ '(' :: (arguments ++ [')'])

/-- The texts of values, separated by commas. -/
def commaSeparated : List Json → List Char
  | [] => []
  | [v] => v.chars
  | v :: rest => v.chars ++ ',' :: ' ' :: commaSeparated rest

/-- The characters of the call that makes a matcher. -/
def chars : Matcher → List Char
  | regex rule => call "regex" (Json.quotedChars rule.source)
  | number kind bounds => call kind.name bounds.toJson.chars
  | date rule => call "date" rule.options.chars
  | text none => call "text" []
  | text (some kind) => call "text" (Json.chars (.object [("type", .string kind.name)]))
  | fake kind => call kind.label []
  | uuid4 => call "uuid4" []
  | anyOf choices => call "anyOf" (commaSeparated choices)
  | notAnyOf choices => call "notAnyOf" (commaSeparated choices)

end Matcher

end HttpContract.Constraint
