import HttpContract.CharSet

/-!
# Pattern — regular expressions

A regular expression as the library computes with it: characters drawn from sets, assertions about
the neighbouring characters, sequence, choice and counted repetition. What a written pattern adds to
this (flags, groups, escapes) is resolved when it is read; see `Pattern.Expr` and `Pattern.Lower`.
-/

namespace HttpContract

/-- A condition on the characters before and after a position in a text. -/
inductive Assertion where
  | textStart
  | textEnd
  | lineStart (carriageReturns : Bool)
  | lineEnd (carriageReturns : Bool)
  | wordBoundary (ascii : Bool)
  | notWordBoundary (ascii : Bool)
  | wordStart (ascii : Bool)
  | wordEnd (ascii : Bool)
  | wordStartHalf (ascii : Bool)
  | wordEndHalf (ascii : Bool)
deriving DecidableEq

/-- A regular expression. A repetition without `most` has no upper bound. -/
inductive Pattern where
  | empty
  | oneOf (set : CharSet)
  | assert (condition : Assertion)
  | seq (first second : Pattern)
  | alt (left right : Pattern)
  | repeat (body : Pattern) (least : Nat) (most : Option Nat)
deriving DecidableEq

namespace Pattern

/-- The sequence of some patterns. -/
def seqs : List Pattern → Pattern
  | [] => empty
  | [p] => p
  | p :: rest => seq p (seqs rest)

/-- The choice between some patterns; of none, no text matches. -/
def alts : List Pattern → Pattern
  | [] => oneOf CharSet.empty
  | [p] => p
  | p :: rest => alt p (alts rest)

/-- Whether the pattern takes no characters, whatever text it matches. -/
def takesNothing : Pattern → Bool
  | empty => true
  | oneOf _ => false
  | assert _ => true
  | seq p q => p.takesNothing && q.takesNothing
  | alt p q => p.takesNothing && q.takesNothing
  | .repeat p _ most => p.takesNothing || most == some 0

end Pattern

end HttpContract
