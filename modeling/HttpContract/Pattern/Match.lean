import HttpContract.Pattern.Basic

/-!
# Pattern — matching

A set of positions in a text of `n` characters is a list of `n + 1` Booleans, the first one for the
position before the first character. `Pattern.advance` takes the positions at which a pattern may
start to those at which it may end; `Pattern.isMatch` asks whether it matches anywhere. The
characters around each position (`neighbours`) are what assertions see.
-/

namespace HttpContract

/-- The characters before and after a position. -/
abbrev Neighbours := Option Char × Option Char

/-- The neighbours of every position in a text. -/
def neighbours (text : List Char) : List Neighbours :=
  List.zip (none :: text.map some) (text.map some ++ [none])

namespace Assertion

/-- Whether a character belongs to words. -/
def isWord (ascii : Bool) : Option Char → Bool
  | none => false
  | some c => if ascii then CharSet.asciiWord.contains c else Unicode.isWord c

/-- Whether the assertion holds between neighbours. -/
def holds : Assertion → Neighbours → Bool
  | textStart, (before, _) => before == none
  | textEnd, (_, after) => after == none
  | lineStart crlf, (before, after) =>
    before == none || before == some '\n' || (crlf && before == some '\r' && after != some '\n')
  | lineEnd crlf, (before, after) =>
    after == none || (after == some '\n' && !(crlf && before == some '\r'))
      || (crlf && after == some '\r')
  | wordBoundary ascii, (before, after) => isWord ascii before != isWord ascii after
  | notWordBoundary ascii, (before, after) => isWord ascii before == isWord ascii after
  | wordStart ascii, (before, after) => !isWord ascii before && isWord ascii after
  | wordEnd ascii, (before, after) => isWord ascii before && !isWord ascii after
  | wordStartHalf ascii, (before, _) => !isWord ascii before
  | wordEndHalf ascii, (_, after) => !isWord ascii after

end Assertion

namespace Pattern

/-- A set of positions in a text. -/
abbrev Positions := List Bool

/-- All positions in one of two sets. -/
def join (s t : Positions) : Positions := List.zipWith (· || ·) s t

/-- The positions behind a character of `set`. -/
def step (set : CharSet) (text : List Char) (s : Positions) : Positions :=
  false :: List.zipWith (fun here c => here && set.contains c) s text

/-- Applies `f` a given number of times, or until nothing is left. -/
def times (f : Positions → Positions) : Nat → Positions → Positions
  | 0, s => s
  | n + 1, s => if s.any id then times f n (f s) else s

/-- The positions reached by applying `f` at most `n` times, `s` being those reached so far. -/
def atMost (f : Positions → Positions) : Nat → Positions → Positions
  | 0, s => s
  | n + 1, s =>
    let next := join s (f s)
    if next == s then s else atMost f n next

/-- The positions at which the pattern can end if it starts at one of `s`. A text has one more
position than characters, so an unbounded repetition reaches all it can in that many rounds. -/
def advance (text : List Char) : Pattern → Positions → Positions
  | empty, s => s
  | oneOf set, s => step set text s
  | assert a, s => List.zipWith (fun here context => here && a.holds context) s (neighbours text)
  | seq p q, s => q.advance text (p.advance text s)
  | alt p q, s => join (p.advance text s) (q.advance text s)
  | .repeat p least most, s =>
    let required := times (p.advance text) least s
    match most with
    | none => atMost (p.advance text) (text.length + 1) required
    | some m => atMost (p.advance text) (m - least) required

/-- Whether the pattern matches somewhere in the text. -/
def isMatch (p : Pattern) (text : List Char) : Bool :=
  (p.advance text (List.replicate (text.length + 1) true)).any id

end Pattern

end HttpContract
