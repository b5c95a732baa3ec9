import HttpContract.Pattern.Lower
import HttpContract.Unicode.Derived

/-!
# Settings.LogFilter — which log messages are shown

A log filter is a list of directives, separated by commas. A directive is a level, a target with or
without a level, or a target and a span with conditions on its fields. An empty filter is allowed,
an empty directive in a list is not.
-/

namespace HttpContract.Settings.LogFilter

/-- The names of the levels. -/
def levels : List String := ["error", "warn", "info", "debug", "trace", "off"]

/-- The value of a number without a sign or with a plus sign. -/
def number? (text : List Char) : Option Nat :=
  let digits := match text with
    | '+' :: rest => rest
    | cs => cs
  if digits.isEmpty || !digits.all Char.isDigit then none
  else some (digits.foldl (fun n c => n * 10 + (c.toNat - 48)) 0)

/-- Whether a text names a level or gives its number. -/
def isLevel (text : List Char) : Bool :=
  match number? text with
  | some n => n ≤ 5
  | none => levels.contains (String.ofList text).toLower

/-- Whether the condition on a field can be read: what follows an equals sign is a number, a truth
value or a pattern. -/
def isCondition [Library] (text : List Char) : Bool :=
  !text.isEmpty &&
    match (text.dropWhile (· ≠ '=')).drop 1 with
    | [] => true
    | rest => (Pattern.compile? (String.ofList (rest.takeWhile (· ≠ '=')))).isSome

/-- Whether a directive may start with a character, apart from a span. -/
def startsName (c : Char) : Bool := ['-', ':', '_'].contains c || Unicode.isAlphanumeric c

/-- What a directive may go on with. -/
inductive Place where
  | start
  | name
  | span
  | condition (text : List Char)
  | closing
  | target

/-- Whether the rest of a directive can be read. Blanks around a directive are passed over, but
those in front of it shift where its level is looked for: `level n` is the directive as it is
written from the `n`-th character on. -/
def readsFrom [Library] (level : Nat → List Char) : Place → Nat → List Char → Bool
  | .name, _, [] => true
  | .target, _, [] => true
  | _, _, [] => false
  | place, i, c :: rest =>
    let levelNext := let text := level (i + 1); text.isEmpty || isLevel text
    match place with
    | .start =>
      if c = '[' then readsFrom level .span (i + 1) rest
      else if startsName c then readsFrom level .name (i + 1) rest
      else false
    | .name =>
      if c = '=' then levelNext
      else if c = '[' then readsFrom level .span (i + 1) rest
      else readsFrom level .name (i + 1) rest
    | .span =>
      if c = ']' then readsFrom level .target (i + 1) rest
      else if c = '\x7b' then readsFrom level (.condition []) (i + 1) rest
      else readsFrom level .span (i + 1) rest
    | .condition text =>
      if c = '\x7d' then isCondition text.reverse && readsFrom level .closing (i + 1) rest
      else readsFrom level (.condition (c :: text)) (i + 1) rest
    | .closing => if c = ']' then readsFrom level .target (i + 1) rest else false
    | .target => if c = '=' then levelNext else false

/-- The text without white space at its ends. -/
def trimmed (cs : List Char) : List Char :=
  ((cs.dropWhile Unicode.isWhiteSpace).reverse.dropWhile Unicode.isWhiteSpace).reverse

/-- Whether a text is a directive. -/
def isDirective [Library] (text : List Char) :
    Bool := readsFrom (text.drop ·) .start 0 (trimmed text)

/-- The parts of a text between commas. -/
def parts : List Char → List (List Char)
  | [] => [[]]
  | c :: rest =>
    match parts rest with
    | [] => [[c]]
    | first :: more => if c = ',' then [] :: first :: more else (c :: first) :: more

/-- Whether a text is a log filter. -/
def isLogFilter [Library] (text : String) :
    Bool := text.isEmpty || (parts text.toList).all isDirective

end HttpContract.Settings.LogFilter
