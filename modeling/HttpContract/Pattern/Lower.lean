import HttpContract.Library
import HttpContract.Pattern.Basic
import HttpContract.Pattern.Parser
import HttpContract.Unicode.WritingSystem

/-!
# Pattern — the meaning of a written pattern

`Expr.lower` resolves flags, escapes and named classes of a written pattern and gives the `Pattern`
it means, or `none` if a name is unknown or the pattern could match half a character.
`Pattern.compile?` reads and lowers a pattern and refuses one that is too large.
-/

namespace HttpContract.Pattern

/-! ## Properties by name -/

/-- A property name without case and separators. A leading `is` does not count. -/
def normalName (name : List Char) : String :=
  let plain := (name.filter fun c => c.toNat < 128 && c != ' ' && c != '_' && c != '-').map
    Char.toLower
  let hasIs := (name.take 2).map Char.toLower == ['i', 's']
  let bare := if hasIs then plain.drop 2 else plain
  String.ofList (if hasIs && bare == ['c'] then plain else bare)

/-- The general categories and their groups by name. -/
def categories : List (List String × List (List Unicode.Range)) :=
  let punctuation := [Unicode.Category.connectorPunctuation, Unicode.Category.dashPunctuation,
    Unicode.Category.openPunctuation, Unicode.Category.closePunctuation,
    Unicode.Category.initialPunctuation, Unicode.Category.finalPunctuation,
    Unicode.Category.otherPunctuation]
  let symbols := [Unicode.Category.mathSymbol, Unicode.Category.currencySymbol,
    Unicode.Category.modifierSymbol, Unicode.Category.otherSymbol]
  let separators := [Unicode.Category.spaceSeparator, Unicode.Category.lineSeparator,
    Unicode.Category.paragraphSeparator]
  [(["l", "letter"], Unicode.letters),
    (["lc", "casedletter"], [Unicode.Category.lowercaseLetter, Unicode.Category.uppercaseLetter,
      Unicode.Category.titlecaseLetter]),
    (["lu", "uppercaseletter"], [Unicode.Category.uppercaseLetter]),
    (["ll", "lowercaseletter"], [Unicode.Category.lowercaseLetter]),
    (["lt", "titlecaseletter"], [Unicode.Category.titlecaseLetter]),
    (["lm", "modifierletter"], [Unicode.Category.modifierLetter]),
    (["lo", "otherletter"], [Unicode.Category.otherLetter]),
    (["m", "mark", "combiningmark"], Unicode.marks),
    (["mn", "nonspacingmark"], [Unicode.Category.nonspacingMark]),
    (["mc", "spacingmark"], [Unicode.Category.spacingMark]),
    (["me", "enclosingmark"], [Unicode.Category.enclosingMark]),
    (["n", "number"], Unicode.numbers),
    (["nd", "decimalnumber", "digit"], [Unicode.Category.decimalNumber]),
    (["nl", "letternumber"], [Unicode.Category.letterNumber]),
    (["no", "othernumber"], [Unicode.Category.otherNumber]),
    (["p", "punctuation", "punct"], punctuation),
    (["pc", "connectorpunctuation"], [Unicode.Category.connectorPunctuation]),
    (["pd", "dashpunctuation"], [Unicode.Category.dashPunctuation]),
    (["ps", "openpunctuation"], [Unicode.Category.openPunctuation]),
    (["pe", "closepunctuation"], [Unicode.Category.closePunctuation]),
    (["pi", "initialpunctuation"], [Unicode.Category.initialPunctuation]),
    (["pf", "finalpunctuation"], [Unicode.Category.finalPunctuation]),
    (["po", "otherpunctuation"], [Unicode.Category.otherPunctuation]),
    (["s", "symbol"], symbols),
    (["sm", "mathsymbol"], [Unicode.Category.mathSymbol]),
    (["sc", "currencysymbol"], [Unicode.Category.currencySymbol]),
    (["sk", "modifiersymbol"], [Unicode.Category.modifierSymbol]),
    (["so", "othersymbol"], [Unicode.Category.otherSymbol]),
    (["z", "separator"], separators),
    (["zs", "spaceseparator"], [Unicode.Category.spaceSeparator]),
    (["zl", "lineseparator"], [Unicode.Category.lineSeparator]),
    (["zp", "paragraphseparator"], [Unicode.Category.paragraphSeparator]),
    (["cc", "control", "cntrl"], [Unicode.Category.control]),
    (["cf", "format"], [Unicode.Category.format]),
    (["co", "privateuse"], [Unicode.Category.privateUse])]

/-- All assigned characters. -/
def assigned : CharSet :=
  CharSet.ofLists (Unicode.visible ++ [Unicode.Category.spaceSeparator,
    Unicode.Category.lineSeparator, Unicode.Category.paragraphSeparator, Unicode.Category.control,
    Unicode.Category.format, Unicode.Category.privateUse])

/-- The characters of a general category. -/
def categoryNamed? (name : String) : Option CharSet :=
  match name with
  | "any" => some CharSet.any
  | "assigned" => some assigned
  | "ascii" => some (CharSet.ofRanges [(0, 127)])
  | "cn" => some assigned.complement
  | "unassigned" => some assigned.complement
  | "c" => some (CharSet.ofLists (Unicode.visible ++ [Unicode.Category.spaceSeparator,
      Unicode.Category.lineSeparator, Unicode.Category.paragraphSeparator])).complement
  | "other" => some (CharSet.ofLists (Unicode.visible ++ [Unicode.Category.spaceSeparator,
      Unicode.Category.lineSeparator, Unicode.Category.paragraphSeparator])).complement
  | _ => (categories.find? fun entry => entry.1.contains name).map fun entry =>
      CharSet.ofLists entry.2

/-- The characters of a writing system. -/
def writingSystemNamed? (name : String) : Option CharSet :=
  (Unicode.WritingSystem.named.lookup name).map CharSet.ofRanges

/-- Characters with case. -/
def cased : CharSet :=
  CharSet.ofLists [Unicode.Category.uppercaseLetter, Unicode.Category.lowercaseLetter,
    Unicode.Category.titlecaseLetter, Unicode.Property.otherLowercase,
    Unicode.Property.otherUppercase]

/-- Characters that start an identifier. -/
def identifierStart : CharSet :=
  (CharSet.ofLists (Unicode.letters ++ [Unicode.Category.letterNumber,
    Unicode.Property.otherIdentifierStart])).diff (CharSet.ofRanges Unicode.Property.syntaxLetter)

/-- Characters of identifiers. -/
def identifierContinue : CharSet :=
  identifierStart.union (CharSet.ofLists [Unicode.Category.nonspacingMark,
    Unicode.Category.spacingMark, Unicode.Category.decimalNumber,
    Unicode.Category.connectorPunctuation, Unicode.Property.otherIdentifierContinue])

/-- Characters that start an identifier in every normal form. -/
def stableIdentifierStart : CharSet :=
  identifierStart.diff (CharSet.ofLists [Unicode.Property.unstableIdentifier,
    Unicode.Property.unstableIdentifierStart])

/-- Characters of identifiers in every normal form. -/
def stableIdentifierContinue : CharSet :=
  identifierContinue.diff (CharSet.ofRanges Unicode.Property.unstableIdentifier)

/-- The characters with a property that they have or do not have. -/
def propertyNamed? (name : String) : Option CharSet :=
  match name with
  | "alphabetic" => some (CharSet.ofLists Unicode.alphabetic)
  | "alpha" => some (CharSet.ofLists Unicode.alphabetic)
  | "lowercase" => some (CharSet.ofLists [Unicode.Category.lowercaseLetter,
      Unicode.Property.otherLowercase])
  | "lower" => some (CharSet.ofLists [Unicode.Category.lowercaseLetter,
      Unicode.Property.otherLowercase])
  | "uppercase" => some (CharSet.ofLists [Unicode.Category.uppercaseLetter,
      Unicode.Property.otherUppercase])
  | "upper" => some (CharSet.ofLists [Unicode.Category.uppercaseLetter,
      Unicode.Property.otherUppercase])
  | "whitespace" => some CharSet.whiteSpace
  | "wspace" => some CharSet.whiteSpace
  | "space" => some CharSet.whiteSpace
  | "graphemeextend" => some (CharSet.ofLists Unicode.graphemeExtend)
  | "grext" => some (CharSet.ofLists Unicode.graphemeExtend)
  | "joincontrol" => some (CharSet.ofRanges Unicode.joinControl)
  | "joinc" => some (CharSet.ofRanges Unicode.joinControl)
  | "asciihexdigit" => some (CharSet.ofRanges [(48, 57), (65, 70), (97, 102)])
  | "ahex" => some (CharSet.ofRanges [(48, 57), (65, 70), (97, 102)])
  | "hexdigit" => some (CharSet.ofRanges Unicode.Property.hexDigit)
  | "hex" => some (CharSet.ofRanges Unicode.Property.hexDigit)
  | "dash" => some (CharSet.ofRanges Unicode.Property.dash)
  | "cased" => some cased
  | "idstart" => some identifierStart
  | "ids" => some identifierStart
  | "idcontinue" => some identifierContinue
  | "idc" => some identifierContinue
  | "xidstart" => some stableIdentifierStart
  | "xids" => some stableIdentifierStart
  | "xidcontinue" => some stableIdentifierContinue
  | "xidc" => some stableIdentifierContinue
  | "emoji" => some (CharSet.ofRanges Unicode.Property.emoji)
  | _ => none

/-- The characters that a property of a pattern asks for. -/
def PropertyQuery.set? : PropertyQuery → Option CharSet
  | .oneLetter c => byName (normalName [c])
  | .named name => byName (normalName name)
  | .valued property value =>
    let value := normalName value
    match normalName property with
    | "gc" => categoryNamed? value
    | "generalcategory" => categoryNamed? value
    | "sc" => writingSystemNamed? value
    | "script" => writingSystemNamed? value
    | _ => none
where
  /-- A property, category or writing system, whichever has the name. -/
  byName (name : String) : Option CharSet :=
    (propertyNamed? name).orElse fun _ =>
      (categoryNamed? name).orElse fun _ => writingSystemNamed? name

/-! ## Flags -/

/-- The flags in force. -/
structure Flags where
  caseInsensitive : Bool := false
  multiLine : Bool := false
  dotMatchesNewLine : Bool := false
  unicode : Bool := true
  carriageReturns : Bool := false
deriving DecidableEq

/-- The flags after a change. What a repetition prefers and how a pattern is spaced do not bear on
what it matches. -/
def Flags.change (flags : Flags) (change : FlagChange) : Flags where
  caseInsensitive := (change.value? .caseInsensitive).getD flags.caseInsensitive
  multiLine := (change.value? .multiLine).getD flags.multiLine
  dotMatchesNewLine := (change.value? .dotMatchesNewLine).getD flags.dotMatchesNewLine
  unicode := (change.value? .unicode).getD flags.unicode
  carriageReturns := (change.value? .carriageReturns).getD flags.carriageReturns

/-! ## Sets -/

/-- Keeps a set of single bytes only if it holds nothing but ASCII. -/
def asciiOnly? (s : CharSet) : Option CharSet := if s.isAscii then some s else none

/-- Adds the other cases of a set's characters if case does not matter, and negates it. -/
def foldAndNegate (flags : Flags) (negated : Bool) (s : CharSet) : Option CharSet :=
  let folded :=
    if !flags.caseInsensitive then s
    else if flags.unicode then s.foldCase
    else s.foldAsciiCase
  let result := if negated then folded.complement else folded
  if flags.unicode then some result else asciiOnly? result

/-- The set of a class with a one-letter escape. -/
def ShortClass.set (unicode : Bool) : ShortClass → CharSet
  | .digit => if unicode then CharSet.digit else CharSet.asciiDigit
  | .space => if unicode then CharSet.whiteSpace else CharSet.asciiWhiteSpace
  | .word => if unicode then CharSet.word else CharSet.asciiWord

/-- The set of a class with a name. -/
def NamedClass.set? (flags : Flags) (negated : Bool) : NamedClass → Option CharSet
  | .short kind =>
    let s := kind.set flags.unicode
    let result := if negated then s.complement else s
    if flags.unicode then some result else asciiOnly? result
  | .property query =>
    if flags.unicode then query.set?.bind (foldAndNegate flags negated) else none
  | .posix kind => foldAndNegate flags negated (CharSet.ofRanges kind.ranges)

/-- The set that stands between brackets. -/
def ClassExpr.set? (flags : Flags) : ClassExpr → Option CharSet
  | .none => some CharSet.empty
  | .range first last _ =>
    let s := CharSet.between first last
    if flags.unicode then some s else asciiOnly? s
  | .named set negated => set.set? flags negated
  | .union left right => do
    let l ← left.set? flags
    let r ← right.set? flags
    some (l.union r)
  | .combine operator left right => do
    let l ← (← left.set? flags) |> foldAndNegate flags false
    let r ← (← right.set? flags) |> foldAndNegate flags false
    some <| match operator with
      | .intersection => l.inter r
      | .difference => l.diff r
      | .symmetricDifference => l.symmDiff r
  | .bracketed negated body => do foldAndNegate flags negated (← body.set? flags)

/-! ## Patterns -/

/-- What an anchor asks of a position under some flags. -/
def Anchor.assertion (flags : Flags) : Anchor → Assertion
  | .startLine => if flags.multiLine then .lineStart flags.carriageReturns else .textStart
  | .endLine => if flags.multiLine then .lineEnd flags.carriageReturns else .textEnd
  | .startText => .textStart
  | .endText => .textEnd
  | .wordBoundary => .wordBoundary (!flags.unicode)
  | .notWordBoundary => .notWordBoundary (!flags.unicode)
  | .wordStart => .wordStart (!flags.unicode)
  | .wordEnd => .wordEnd (!flags.unicode)
  | .wordStartHalf => .wordStartHalf (!flags.unicode)
  | .wordEndHalf => .wordEndHalf (!flags.unicode)

/-- The characters that a dot stands for. -/
def dotSet (flags : Flags) : Option CharSet :=
  if !flags.unicode then none
  else if flags.dotMatchesNewLine then some CharSet.any
  else if flags.carriageReturns then some (CharSet.ofRanges [(10, 10), (13, 13)]).complement
  else some (CharSet.ofRanges [(10, 10)]).complement

/-- The pattern of a single character. -/
def lowerLiteral (flags : Flags) (c : Char) (byte : Bool) : Option Pattern :=
  if !flags.unicode && byte && 128 ≤ c.toNat then none
  else if !flags.caseInsensitive then some (oneOf (CharSet.single c))
  else if flags.unicode then some (oneOf (CharSet.single c).foldCase)
  else some (oneOf (CharSet.single c).foldAsciiCase)

/-- A repetition; of a pattern that takes nothing, one round is as good as many. -/
def repeated (body : Pattern) (least : Nat) (most : Option Nat) : Pattern :=
  if most = some 0 then empty
  else if body.takesNothing then .repeat body (min least 1) (most.map (min 1))
  else .repeat body least most

namespace Expr

mutual

/-- The meaning of a written pattern under some flags, and the flags for what follows it. -/
def lower (flags : Flags) : Expr → Option (Pattern × Flags)
  | .empty => some (Pattern.empty, flags)
  | .flags change => some (Pattern.empty, flags.change change)
  | .literal c byte => (lowerLiteral flags c byte).map (·, flags)
  | .dot => (dotSet flags).map fun s => (oneOf s, flags)
  | .anchor a => some (.assert (a.assertion flags), flags)
  | .named set negated => (set.set? flags negated).map fun s => (oneOf s, flags)
  | .bracketed negated body => do
    let s ← body.set? flags
    let s ← foldAndNegate flags negated s
    some (oneOf s, flags)
  | .group change body => (lower (flags.change change) body).map fun r => (r.1, flags)
  | .repeat body least most =>
    (lower flags body).map fun r => (repeated r.1 least most, r.2)
  | .concat items => (lowerAll flags items).map fun r => (seqs r.1, r.2)
  | .alternation branches => (lowerAll flags branches).map fun r => (alts r.1, r.2)
termination_by structural e => e

/-- The meanings of some written patterns, flags passing from each to the next. -/
def lowerAll (flags : Flags) : List Expr → Option (List Pattern × Flags)
  | [] => some ([], flags)
  | e :: rest => do
    let (p, flags) ← lower flags e
    let (ps, flags) ← lowerAll flags rest
    some (p :: ps, flags)
termination_by structural es => es

end

end Expr

/-- The pattern that a text means, if it is well formed. -/
def parse? (text : String) : Option Pattern := do
  let e ← Expr.parse? text.toList
  let (p, _) ← e.lower {}
  some p

/-- The pattern that a text means, if it is well formed and not too large. -/
def compile? [Library] (text : String) : Option Pattern :=
  (parse? text).filter fun _ => Library.allowsPattern text

end HttpContract.Pattern
