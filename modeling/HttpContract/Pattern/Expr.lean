import HttpContract.Unicode.Derived

/-!
# Pattern.Expr — patterns as written

The tree of a written regular expression, with its groups and flags in place. `Expr.depth` counts
how deeply its parts are nested; a pattern past `Expr.depthLimit` is refused.
-/

namespace HttpContract.Pattern

/-- The flags that change what a pattern means. -/
inductive Flag where
  | caseInsensitive
  | multiLine
  | dotMatchesNewLine
  | swapGreed
  | unicode
  | carriageReturns
  | ignoreWhitespace
deriving DecidableEq

/-- A change of flags: each with its new value. -/
abbrev FlagChange := List (Flag × Bool)

/-- The value a change gives to a flag, if it names it. -/
def FlagChange.value? (change : FlagChange) (flag : Flag) : Option Bool := change.lookup flag

/-- The classes with a one-letter escape. -/
inductive ShortClass where
  | digit
  | space
  | word
deriving DecidableEq

/-- A property of characters as a pattern names it. -/
inductive PropertyQuery where
  | oneLetter (name : Char)
  | named (name : List Char)
  | valued (property value : List Char)
deriving DecidableEq

/-- The sets that may be named between colons in brackets. -/
inductive PosixClass where
  | alnum
  | alpha
  | ascii
  | blank
  | cntrl
  | digit
  | graph
  | lower
  | print
  | punct
  | space
  | upper
  | word
  | xdigit
deriving DecidableEq

/-- The code points of a set named between colons. -/
def PosixClass.ranges : PosixClass → List Unicode.Range
  | alnum => [(48, 57), (65, 90), (97, 122)]
  | alpha => [(65, 90), (97, 122)]
  | ascii => [(0, 127)]
  | blank => [(9, 9), (32, 32)]
  | cntrl => [(0, 31), (127, 127)]
  | digit => [(48, 57)]
  | graph => [(33, 126)]
  | lower => [(97, 122)]
  | print => [(32, 126)]
  | punct => [(33, 47), (58, 64), (91, 96), (123, 126)]
  | space => [(9, 13), (32, 32)]
  | upper => [(65, 90)]
  | word => [(48, 57), (65, 90), (95, 95), (97, 122)]
  | xdigit => [(48, 57), (65, 70), (97, 102)]

/-- A set of characters with a name. -/
inductive NamedClass where
  | short (kind : ShortClass)
  | property (query : PropertyQuery)
  | posix (kind : PosixClass)
deriving DecidableEq

/-- How two bracketed sets are combined. -/
inductive SetOperator where
  | intersection
  | difference
  | symmetricDifference
deriving DecidableEq

/-- What stands between brackets. -/
inductive ClassExpr where
  | none
  | range (first last : Char) (bytes : Bool)
  | named (set : NamedClass) (negated : Bool)
  | union (left right : ClassExpr)
  | combine (operator : SetOperator) (left right : ClassExpr)
  | bracketed (negated : Bool) (body : ClassExpr)
deriving DecidableEq

/-- Where a pattern can ask for a position. The flags decide what a line is. -/
inductive Anchor where
  | startLine
  | endLine
  | startText
  | endText
  | wordBoundary
  | notWordBoundary
  | wordStart
  | wordEnd
  | wordStartHalf
  | wordEndHalf
deriving DecidableEq

/-- A written pattern. -/
inductive Expr where
  | empty
  | flags (change : FlagChange)
  | literal (c : Char) (byte : Bool)
  | dot
  | anchor (a : Anchor)
  | named (set : NamedClass) (negated : Bool)
  | bracketed (negated : Bool) (body : ClassExpr)
  | group (change : FlagChange) (body : Expr)
  | repeat (body : Expr) (least : Nat) (most : Option Nat)
  | concat (items : List Expr)
  | alternation (branches : List Expr)

/-- How deeply sets are nested between brackets. -/
def ClassExpr.depth : ClassExpr → Nat
  | .none => 0
  | .range _ _ _ => 0
  | .named _ _ => 0
  | .union left right => max left.depth right.depth
  | .combine _ left right => max left.depth right.depth + 1
  | .bracketed _ body => body.depth + 1

namespace Expr

/-- How many parts may lie within each other. -/
def depthLimit : Nat := 250

mutual

/-- How deeply the parts of a pattern are nested. -/
def depth : Expr → Nat
  | .empty => 0
  | .flags _ => 0
  | .literal _ _ => 0
  | .dot => 0
  | .anchor _ => 0
  | .named _ _ => 0
  | .bracketed _ body => body.depth + 1
  | .group _ body => body.depth + 1
  | .repeat body _ _ => body.depth + 1
  | .concat items => depths items + 1
  | .alternation branches => depths branches + 1
termination_by structural e => e

/-- The depth of the deepest of some patterns. -/
def depths : List Expr → Nat
  | [] => 0
  | e :: rest => max e.depth (depths rest)
termination_by structural es => es

end

/-- Some patterns in a row; one alone stands for itself. -/
def ofItems : List Expr → Expr
  | [] => .empty
  | [e] => e
  | items => .concat items

/-- Some patterns to choose from; one alone stands for itself. -/
def ofBranches : List Expr → Expr
  | [e] => e
  | branches => .alternation branches

end Expr

end HttpContract.Pattern
