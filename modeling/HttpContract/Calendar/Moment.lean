import HttpContract.Calendar.Item

/-!
# Calendar.Moment — formats of letters

A date format without a percent sign is written in letters that are repeated for longer forms, such
as `YYYY-MM-DD`. Text between brackets stands for itself. `Moment.directives` turns such a format
into one with directives: at each place the longest token that stands there is replaced, and a
character at which none starts is kept.
-/

namespace HttpContract.Calendar.Moment

/-- The tokens with the directives that replace them, longer ones before those they start with. -/
def tokens : List (List Char × List Char) :=
  [(['Y', 'Y', 'Y', 'Y'], ['%', 'Y']),
    (['Y', 'Y'], ['%', 'y']),
    (['M', 'M', 'M', 'M'], ['%', 'B']),
    (['M', 'M', 'M'], ['%', 'b']),
    (['M', 'M'], ['%', 'm']),
    (['M'], ['%', '-', 'm']),
    (['D', 'D'], ['%', 'd']),
    (['D'], ['%', '-', 'd']),
    (['d', 'd', 'd', 'd'], ['%', 'A']),
    (['d', 'd', 'd'], ['%', 'a']),
    (['H', 'H'], ['%', 'H']),
    (['H'], ['%', '-', 'H']),
    (['h', 'h'], ['%', 'I']),
    (['h'], ['%', '-', 'I']),
    (['m', 'm'], ['%', 'M']),
    (['m'], ['%', '-', 'M']),
    (['s', 's'], ['%', 'S']),
    (['s'], ['%', '-', 'S']),
    (['S', 'S', 'S'], ['%', '3', 'f']),
    (['A'], ['%', 'p']),
    (['a'], ['%', 'P']),
    (['Z', 'Z'], ['%', 'z']),
    (['Z'], ['%', ':', 'z']),
    (['X'], ['%', 's'])]

/-- The first token of a list that a text starts with. -/
def tokenAt? (cs : List Char) : Option (List Char × List Char) :=
  tokens.find? fun token => token.1.isPrefixOf cs

/-- The text between an opening bracket and the next closing one, and the rest. -/
def bracketed? : List Char → Option (List Char × List Char)
  | [] => none
  | c :: rest =>
    if c = ']' then some ([], rest)
    else (bracketed? rest).map fun r => (c :: r.1, r.2)

/-- Replaces tokens. The first argument bounds the number of steps. -/
def replaceTokens : Nat → List Char → List Char
  | 0, _ => []
  | _ + 1, [] => []
  | steps + 1, c :: rest =>
    match (if c = '[' then bracketed? rest else none) with
    | some (inside, rest) => inside ++ replaceTokens steps rest
    | none =>
      match tokenAt? (c :: rest) with
      | some (token, directive) =>
        directive ++ replaceTokens steps ((c :: rest).drop token.length)
      | none => c :: replaceTokens steps rest

/-- The format with directives that a format means. One that has a percent sign has them already. -/
def directives (format : List Char) : List Char :=
  if format.contains '%' then format else replaceTokens (format.length + 1) format

end HttpContract.Calendar.Moment
