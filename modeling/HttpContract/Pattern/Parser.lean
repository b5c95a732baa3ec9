import HttpContract.Pattern.Expr

/-!
# Pattern — reading a written pattern

A recursive reader of regular expressions over the list of their characters. Each reader returns
what it read and the characters after it, or `none` if the text is not well formed. With
`spaced` (the flag `x`) white space and comments between the parts of a pattern do not count.
-/

namespace HttpContract.Pattern

/-! ## Blanks -/

/-- Drops white space and comments; `inComment` tells whether a comment is being dropped. -/
def dropBlank : Bool → List Char → List Char
  | _, [] => []
  | true, c :: rest => dropBlank (c != '\n') rest
  | false, c :: rest =>
    if Unicode.isWhiteSpace c then dropBlank false rest
    else if c = '#' then dropBlank true rest
    else c :: rest

/-- Drops white space and comments, if these do not count. -/
def skipBlank (spaced : Bool) (cs : List Char) : List Char :=
  if spaced then dropBlank false cs else cs

/-- Drops white space. -/
def skipWhiteSpace (cs : List Char) : List Char := cs.dropWhile Unicode.isWhiteSpace

/-! ## Numbers and escapes -/

/-- Reads decimal digits, with blanks between them. -/
def digitsFrom (spaced : Bool) : Nat → List Char → List Char × List Char
  | 0, cs => ([], cs)
  | _ + 1, [] => ([], [])
  | fuel + 1, c :: rest =>
    if c.isDigit then
      let (more, after) := digitsFrom spaced fuel (skipBlank spaced rest)
      (c :: more, after)
    else ([], c :: rest)

/-- The number with some decimal digits. -/
def ofDigits (base : Nat) (value : Char → Nat) (ds : List Char) : Nat :=
  ds.foldl (fun n d => n * base + value d) 0

/-- The value of a hexadecimal digit. -/
def hexValue (c : Char) : Nat :=
  if c.isDigit then c.toNat - 48 else if c.isLower then c.toNat - 87 else c.toNat - 55

/-- Whether a character is a hexadecimal digit. -/
def isHex (c : Char) : Bool :=
  c.isDigit || ('a' ≤ c && c ≤ 'f') || ('A' ≤ c && c ≤ 'F')

/-- Reads a count, which may stand between white space and must fit 32 bits. -/
def parseCount (spaced : Bool) (cs : List Char) : Option (Nat × List Char) :=
  let start := skipWhiteSpace cs
  let (ds, rest) := digitsFrom spaced start.length start
  let n := ofDigits 10 (fun d => d.toNat - 48) ds
  if ds.isEmpty || 4294967296 ≤ n then none else some (n, skipBlank spaced (skipWhiteSpace rest))

/-- The character with a code point, if it is one. -/
def charOfCode? (n : Nat) : Option Char :=
  if h : n.isValidChar then some (Char.ofNatAux n h) else none

/-- Reads a fixed number of hexadecimal digits. -/
def parseHexFixed (spaced : Bool) : Nat → Nat → List Char → Option (Nat × List Char)
  | 0, value, cs => some (value, cs)
  | n + 1, value, cs =>
    match skipBlank spaced cs with
    | [] => none
    | c :: rest =>
      if isHex c then parseHexFixed spaced n (value * 16 + hexValue c) rest else none

/-- Reads hexadecimal digits up to the closing brace. -/
def parseHexBraced (spaced : Bool) : Nat → List Char → List Char → Option (List Char × List Char)
  | 0, _, _ => none
  | fuel + 1, ds, cs =>
    match skipBlank spaced cs with
    | [] => none
    | c :: rest =>
      if c = '}' then some (ds, rest)
      else if isHex c then parseHexBraced spaced fuel (ds ++ [c]) rest
      else none

/-- Reads a character by its code point, behind the letter `kind` of the escape. The flag tells
whether it was written as one byte. -/
def parseHex (spaced : Bool) (kind : Char) (cs : List Char) : Option ((Char × Bool) × List Char) :=
  match skipBlank spaced cs with
  | [] => none
  | '{' :: rest => do
    let (ds, rest) ← parseHexBraced spaced (rest.length + 1) [] rest
    if ds.isEmpty then none
    else
      let c ← charOfCode? (ofDigits 16 hexValue ds)
      some ((c, false), skipBlank spaced rest)
  | cs => do
    let count := if kind = 'x' then 2 else if kind = 'u' then 4 else 8
    let (n, rest) ← parseHexFixed spaced count 0 cs
    let c ← charOfCode? n
    some ((c, kind = 'x'), skipBlank spaced rest)

/-- Characters with a meaning of their own in patterns. -/
def isMeta (c : Char) : Bool := "\\.+*?()|[]\x7b\x7d^$#&-~".toList.contains c

/-- Characters that a backslash turns into themselves. -/
def isEscapable (c : Char) : Bool :=
  isMeta c || (c.toNat < 128 && !c.isAlphanum && c != '<' && c != '>')

/-! ## Classes with names -/

/-- Splits a text at the first place where `mark` stands. -/
def splitAt? (mark : List Char) : List Char → Option (List Char × List Char)
  | [] => none
  | c :: rest =>
    if mark.isPrefixOf (c :: rest) then some ([], (c :: rest).drop mark.length)
    else (splitAt? mark rest).map fun p => (c :: p.1, p.2)

/-- What the text between the braces of a property escape asks for; the flag negates it. -/
def propertyQuery (name : List Char) : PropertyQuery × Bool :=
  match splitAt? ['!', '='] name with
  | some (property, value) => (.valued property value, true)
  | none =>
    match splitAt? [':'] name with
    | some (property, value) => (.valued property value, false)
    | none =>
      match splitAt? ['='] name with
      | some (property, value) => (.valued property value, false)
      | none => (.named name, false)

/-- Reads the characters up to a closing brace. -/
def parseBraced (spaced : Bool) : Nat → List Char → List Char → Option (List Char × List Char)
  | 0, _, _ => none
  | fuel + 1, name, cs =>
    match skipBlank spaced cs with
    | [] => none
    | c :: rest =>
      if c = '}' then some (name, rest) else parseBraced spaced fuel (name ++ [c]) rest

/-- Reads the property behind `\p` or `\P`; the flag negates it. -/
def parseProperty (spaced : Bool) (cs : List Char) :
    Option ((PropertyQuery × Bool) × List Char) :=
  match skipBlank spaced cs with
  | [] => none
  | '{' :: rest => do
    let (name, rest) ← parseBraced spaced (rest.length + 1) [] rest
    some (propertyQuery name, rest)
  | '\\' :: _ => none
  | c :: rest => some ((.oneLetter c, false), skipBlank spaced rest)

/-- What a backslash and the characters behind it stand for. -/
inductive Escape where
  | literal (c : Char) (byte : Bool)
  | named (set : NamedClass) (negated : Bool)
  | anchor (a : Anchor)

/-- Reads what may follow `\b` in braces; anything else there is left alone. -/
def parseBoundaryName (spaced : Bool) (cs : List Char) : Option (Anchor × List Char) :=
  match cs with
  | '{' :: inner =>
    let letters := fun c : Char => c.isAlpha || c = '-'
    match skipBlank spaced inner with
    | [] => none
    | first :: _ =>
      if !letters first then some (.wordBoundary, cs)
      else
        match parseBraced spaced (inner.length + 1) [] inner with
        | none => none
        | some (name, rest) =>
          match String.ofList name with
          | "start" => some (.wordStart, rest)
          | "end" => some (.wordEnd, rest)
          | "start-half" => some (.wordStartHalf, rest)
          | "end-half" => some (.wordEndHalf, rest)
          | _ => none
  | cs => some (.wordBoundary, cs)

/-- Reads an escape, the backslash being behind us. -/
def parseEscape (spaced : Bool) : List Char → Option (Escape × List Char)
  | [] => none
  | c :: rest =>
    if c.isDigit then none
    else if c = 'x' || c = 'u' || c = 'U' then
      (parseHex spaced c rest).map fun r => (.literal r.1.1 r.1.2, r.2)
    else if c = 'p' || c = 'P' then
      (parseProperty spaced rest).map fun r =>
        (.named (.property r.1.1) ((c = 'P') != r.1.2), r.2)
    else if c = 'd' || c = 'D' then some (.named (.short .digit) (c = 'D'), rest)
    else if c = 's' || c = 'S' then some (.named (.short .space) (c = 'S'), rest)
    else if c = 'w' || c = 'W' then some (.named (.short .word) (c = 'W'), rest)
    else if isEscapable c then some (.literal c false, rest)
    else
      match c with
      | 'a' => some (.literal '\x07' false, rest)
      | 'f' => some (.literal '\x0c' false, rest)
      | 't' => some (.literal '\t' false, rest)
      | 'n' => some (.literal '\n' false, rest)
      | 'r' => some (.literal '\r' false, rest)
      | 'v' => some (.literal '\x0b' false, rest)
      | 'A' => some (.anchor .startText, rest)
      | 'z' => some (.anchor .endText, rest)
      | 'b' => (parseBoundaryName spaced rest).map fun r => (.anchor r.1, r.2)
      | 'B' => some (.anchor .notWordBoundary, rest)
      | '<' => some (.anchor .wordStart, rest)
      | '>' => some (.anchor .wordEnd, rest)
      | _ => none

/-! ## Brackets -/

/-- The names of the sets that may be named between colons in brackets. -/
def posixClasses : List (String × PosixClass) := [
  ("alnum", .alnum), ("alpha", .alpha), ("ascii", .ascii), ("blank", .blank), ("cntrl", .cntrl),
  ("digit", .digit), ("graph", .graph), ("lower", .lower), ("print", .print), ("punct", .punct),
  ("space", .space), ("upper", .upper), ("word", .word), ("xdigit", .xdigit)]

/-- Reads the name of a set up to the colon and the bracket behind it. -/
def posixName? (negated : Bool) (cs : List Char) : Option (ClassExpr × List Char) :=
  let name := cs.takeWhile (· != ':')
  match cs.drop name.length with
  | ':' :: ']' :: after =>
    (posixClasses.lookup (String.ofList name)).map fun kind => (.named (.posix kind) negated, after)
  | _ => none

/-- Reads a set named between colons, the bracket being behind us, if there is one. -/
def posixClass? : List Char → Option (ClassExpr × List Char)
  | ':' :: '^' :: rest => posixName? true rest
  | ':' :: rest => posixName? false rest
  | _ => none

/-- A member of a bracketed set: a character, which may begin a range, or a named class. -/
inductive Member where
  | literal (c : Char) (byte : Bool)
  | named (set : NamedClass) (negated : Bool)

/-- Reads one member of a bracketed set. Positions cannot be members. -/
def parseMember (spaced : Bool) : List Char → Option (Member × List Char)
  | [] => none
  | '\\' :: rest =>
    match parseEscape spaced rest with
    | some (.literal c byte, rest) => some (.literal c byte, rest)
    | some (.named set negated, rest) => some (.named set negated, rest)
    | _ => none
  | c :: rest => some (.literal c false, rest)

/-- The set with a single member. -/
def Member.toClass : Member → ClassExpr
  | .literal c byte => .range c c byte
  | .named set negated => .named set negated

/-- Reads a member of a bracketed set or a range of them. -/
def parseRange (spaced : Bool) (cs : List Char) : Option (ClassExpr × List Char) := do
  let (member, rest) ← parseMember spaced cs
  match skipBlank spaced rest with
  | [] => none
  | '-' :: afterDash =>
    match skipBlank spaced afterDash with
    | ']' :: _ => some (member.toClass, '-' :: afterDash)
    | '-' :: _ => some (member.toClass, '-' :: afterDash)
    | [] => none
    | next =>
      let (last, rest) ← parseMember spaced next
      match member, last with
      | .literal a aByte, .literal b bByte =>
        if a ≤ b then some (.range a b (aByte || bByte), rest) else none
      | _, _ => none
  | rest => some (member.toClass, rest)

/-- The characters that a bracketed set may open with although they mean something later: any
number of dashes, or else one closing bracket. -/
def openingMembers (spaced : Bool) : Nat → ClassExpr → List Char → Option (ClassExpr × List Char)
  | 0, _, _ => none
  | fuel + 1, set, cs =>
    match cs with
    | [] => none
    | '-' :: rest => openingMembers spaced fuel (.union set (.range '-' '-' false))
        (skipBlank spaced rest)
    | ']' :: rest =>
      if set = .none then
        match skipBlank spaced rest with
        | [] => none
        | rest => some (.range ']' ']' false, rest)
      else some (set, cs)
    | cs => some (set, cs)

/-- Applies the operator that waits for its right side. -/
def closeOperand (waiting : Option (SetOperator × ClassExpr)) (right : ClassExpr) : ClassExpr :=
  match waiting with
  | none => right
  | some (operator, left) => .combine operator left right

/-- Drops the caret that negates a bracketed set, if there is one. -/
def parseNegation (spaced : Bool) (cs : List Char) : Bool × List Char :=
  match skipBlank spaced cs with
  | '^' :: rest => (true, skipBlank spaced rest)
  | rest => (false, rest)

/-- Reads the inside of brackets up to the closing one. `waiting` is an operator with its left
side, `set` the members read since then. -/
def parseBrackets (spaced : Bool) : Nat → Option (SetOperator × ClassExpr) → ClassExpr →
    List Char → Option (ClassExpr × List Char)
  | 0, _, _, _ => none
  | fuel + 1, waiting, set, cs =>
    match skipBlank spaced cs with
    | [] => none
    | '[' :: rest =>
      match posixClass? rest with
      | some (named, rest) => parseBrackets spaced fuel waiting (.union set named) rest
      | none => do
        let (negated, rest) := parseNegation spaced rest
        let (opening, rest) ← openingMembers spaced (rest.length + 1) .none rest
        let (body, rest) ← parseBrackets spaced fuel none opening rest
        parseBrackets spaced fuel waiting (.union set (.bracketed negated body)) rest
    | ']' :: rest => some (closeOperand waiting set, rest)
    | '&' :: '&' :: rest =>
      parseBrackets spaced fuel (some (.intersection, closeOperand waiting set)) .none rest
    | '-' :: '-' :: rest =>
      parseBrackets spaced fuel (some (.difference, closeOperand waiting set)) .none rest
    | '~' :: '~' :: rest =>
      parseBrackets spaced fuel (some (.symmetricDifference, closeOperand waiting set)) .none rest
    | cs => do
      let (member, rest) ← parseRange spaced cs
      parseBrackets spaced fuel waiting (.union set member) rest

/-- Reads a bracketed set, its opening bracket being behind us. -/
def parseClass (spaced : Bool) (cs : List Char) : Option (Expr × List Char) := do
  let (negated, rest) := parseNegation spaced cs
  let (opening, rest) ← openingMembers spaced (rest.length + 1) .none rest
  let (body, rest) ← parseBrackets spaced (rest.length + 1) none opening rest
  some (.bracketed negated body, rest)

/-! ## Groups -/

/-- The flag with a given letter. -/
def flag? : Char → Option Flag
  | 'i' => some .caseInsensitive
  | 'm' => some .multiLine
  | 's' => some .dotMatchesNewLine
  | 'U' => some .swapGreed
  | 'u' => some .unicode
  | 'R' => some .carriageReturns
  | 'x' => some .ignoreWhitespace
  | _ => none

/-- Reads flags up to a colon or a closing parenthesis. A dash negates those behind it. -/
def parseFlags : Bool → FlagChange → List Char → Option ((FlagChange × Bool) × List Char)
  | _, _, [] => none
  | negating, change, c :: rest =>
    if c = ':' then some ((change, true), rest)
    else if c = ')' then some ((change, false), rest)
    else if c = '-' then
      match negating, rest with
      | true, _ => none
      | _, ':' :: _ => none
      | _, ')' :: _ => none
      | _, rest => parseFlags true change rest
    else
      match flag? c with
      | none => none
      | some flag =>
        if (change.value? flag).isSome then none
        else parseFlags negating (change ++ [(flag, !negating)]) rest

/-- Whether a character may stand in the name of a group. -/
def isNameChar (first : Bool) (c : Char) : Bool :=
  if first then c = '_' || Unicode.isAlphabetic c
  else c = '_' || c = '.' || c = '[' || c = ']' || Unicode.isAlphanumeric c

/-- Reads the name of a group up to the closing angle bracket. -/
def parseName : List Char → List Char → Option (List Char × List Char)
  | _, [] => none
  | name, c :: rest =>
    if c = '>' then (if name.isEmpty then none else some (name, rest))
    else if isNameChar name.isEmpty c then parseName (name ++ [c]) rest
    else none

/-- What stands behind an opening parenthesis. -/
inductive Opening where
  | flags (change : FlagChange)
  | plain (change : FlagChange)
  | named (name : List Char)

/-- Reads what stands behind an opening parenthesis up to the body of the group. -/
def parseOpening (spaced : Bool) (cs : List Char) : Option (Opening × List Char) :=
  match skipBlank spaced cs with
  | '?' :: '=' :: _ => none
  | '?' :: '!' :: _ => none
  | '?' :: '<' :: '=' :: _ => none
  | '?' :: '<' :: '!' :: _ => none
  | '?' :: 'P' :: '<' :: rest => (parseName [] rest).map fun r => (.named r.1, r.2)
  | '?' :: '<' :: rest => (parseName [] rest).map fun r => (.named r.1, r.2)
  | '?' :: rest => do
    let ((change, grouping), rest) ← parseFlags false [] rest
    if grouping then some (.plain change, rest)
    else if change.isEmpty then none
    else some (.flags change, rest)
  | rest => some (.plain [], rest)

/-! ## Repetitions -/

/-- Drops a question mark that makes a repetition prefer the fewest rounds. -/
def dropReluctance (cs : List Char) : List Char :=
  match cs with
  | '?' :: rest => rest
  | cs => cs

/-- Reads the least and the greatest count of a repetition, up to the closing brace. -/
def parseLimits (spaced : Bool) (cs : List Char) : Option ((Nat × Option Nat) × List Char) :=
  match parseCount spaced (skipBlank spaced cs) with
  | some (least, ',' :: rest) =>
    match skipBlank spaced rest with
    | '}' :: rest => some ((least, none), '}' :: rest)
    | rest => (parseCount spaced rest).map fun r => ((least, some r.1), r.2)
  | some (least, rest) => some ((least, some least), rest)
  | none => none

/-- Reads a counted repetition, its opening brace being behind us. -/
def parseCounts (spaced : Bool) (cs : List Char) : Option ((Nat × Option Nat) × List Char) :=
  match parseLimits spaced cs with
  | some (counts, '}' :: rest) =>
    if counts.2.all fun most => counts.1 ≤ most then
      some (counts, dropReluctance (skipBlank spaced rest))
    else none
  | _ => none

/-- The last item in a row, if it can be repeated, and those before it. -/
def repeatable? : List Expr → Option (Expr × List Expr)
  | [] => none
  | .empty :: _ => none
  | .flags _ :: _ => none
  | e :: rest => some (e, rest)

/-! ## Patterns -/

/-- Reads branches up to a closing parenthesis or the end. `branches` and `items` hold, last one
first, the branches that are complete and the items of the one being read; `names` are the names of
groups given so far. -/
def parseBranches : Nat → Bool → List (List Char) → List Expr → List Expr → List Char →
    Option ((Expr × List (List Char)) × List Char)
  | 0, _, _, _, _, _ => none
  | fuel + 1, spaced, names, branches, items, cs =>
    match skipBlank spaced cs with
    | [] => some ((.ofBranches ((Expr.ofItems items.reverse :: branches).reverse), names), [])
    | ')' :: rest =>
      some ((.ofBranches ((Expr.ofItems items.reverse :: branches).reverse), names), ')' :: rest)
    | '(' :: rest => do
      let (opening, rest) ← parseOpening spaced rest
      match opening with
      | .flags change =>
        let spaced := (change.value? .ignoreWhitespace).getD spaced
        parseBranches fuel spaced names branches (.flags change :: items) rest
      | .plain change =>
        let inner := (change.value? .ignoreWhitespace).getD spaced
        match ← parseBranches fuel inner names [] [] rest with
        | ((body, names), ')' :: rest) =>
          parseBranches fuel spaced names branches (.group change body :: items) rest
        | _ => none
      | .named name =>
        if names.contains name then none
        else
          match ← parseBranches fuel spaced (name :: names) [] [] rest with
          | ((body, names), ')' :: rest) =>
            parseBranches fuel spaced names branches (.group [] body :: items) rest
          | _ => none
    | '|' :: rest =>
      parseBranches fuel spaced names (Expr.ofItems items.reverse :: branches) [] rest
    | '[' :: rest => do
      let (set, rest) ← parseClass spaced rest
      parseBranches fuel spaced names branches (set :: items) rest
    | '?' :: rest => do
      let (body, items) ← repeatable? items
      parseBranches fuel spaced names branches (.repeat body 0 (some 1) :: items)
        (dropReluctance rest)
    | '*' :: rest => do
      let (body, items) ← repeatable? items
      parseBranches fuel spaced names branches (.repeat body 0 none :: items) (dropReluctance rest)
    | '+' :: rest => do
      let (body, items) ← repeatable? items
      parseBranches fuel spaced names branches (.repeat body 1 none :: items) (dropReluctance rest)
    | '{' :: rest => do
      let (body, items) ← repeatable? items
      let ((least, most), rest) ← parseCounts spaced rest
      parseBranches fuel spaced names branches (.repeat body least most :: items) rest
    | '\\' :: rest => do
      let (escape, rest) ← parseEscape spaced rest
      let item := match escape with
        | .literal c byte => Expr.literal c byte
        | .named set negated => .named set negated
        | .anchor a => .anchor a
      parseBranches fuel spaced names branches (item :: items) rest
    | '.' :: rest => parseBranches fuel spaced names branches (.dot :: items) rest
    | '^' :: rest => parseBranches fuel spaced names branches (.anchor .startLine :: items) rest
    | '$' :: rest => parseBranches fuel spaced names branches (.anchor .endLine :: items) rest
    | c :: rest => parseBranches fuel spaced names branches (.literal c false :: items) rest

/-- Reads a whole pattern. -/
def Expr.parse? (text : List Char) : Option Expr :=
  match parseBranches (text.length + 1) false [] [] [] text with
  | some ((e, _), []) => if e.depth ≤ Expr.depthLimit then some e else none
  | _ => none

end HttpContract.Pattern
