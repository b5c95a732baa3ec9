import HttpContract.Proofs.Basic
import HttpContract.Proofs.Pattern.Suffix

/-!
# Pattern — reading a pattern between anchors

A pattern is read as rows of items, one for each branch. Reading the same text with anchors in
front of the first row and with something behind the text gives rows that differ by the anchors
only, until the end of the text is reached; then reading goes on with what stands behind it.

The reader of branches reads a piece of the text and goes on behind it. The two are apart here:
`next?` reads a piece, which takes no recursion, and `Next.goOn` says how reading goes on. What is
said of the reader is said of a piece first, and then, by induction on the fuel, of what is behind.
-/

namespace HttpContract.Pattern

open Pattern.Expr (ofItems ofBranches)

variable {spaced : Bool}

/-! ## Piece by piece -/

/-- What stands next where branches are read: the end, the end of a branch, an opening parenthesis,
an item or how often the item before is repeated. -/
inductive Next where
  | stop
  | bar
  | opening (o : Opening)
  | item (e : Expr)
  | counts (least : Nat) (most : Option Nat)

/-- The item that an escape stands for. -/
def Escape.item : Escape → Expr
  | .literal c byte => .literal c byte
  | .named set negated => .named set negated
  | .anchor a => .anchor a

/-- Reads what starts with a character. -/
def nextAt? (spaced : Bool) (c : Char) (rest : List Char) : Option (Next × List Char) :=
  match c with
  | ')' => some (.stop, ')' :: rest)
  | '(' => (parseOpening spaced rest).map fun r => (.opening r.1, r.2)
  | '|' => some (.bar, rest)
  | '[' => (parseClass spaced rest).map fun r => (.item r.1, r.2)
  | '?' => some (.counts 0 (some 1), dropReluctance rest)
  | '*' => some (.counts 0 none, dropReluctance rest)
  | '+' => some (.counts 1 none, dropReluctance rest)
  | '{' => (parseCounts spaced rest).map fun r => (.counts r.1.1 r.1.2, r.2)
  | '\\' => (parseEscape spaced rest).map fun r => (.item r.1.item, r.2)
  | '.' => some (.item .dot, rest)
  | '^' => some (.item (.anchor .startLine), rest)
  | '$' => some (.item (.anchor .endLine), rest)
  | c => some (.item (.literal c false), rest)

/-- Reads a piece of some branches. -/
def next? (spaced : Bool) (cs : List Char) : Option (Next × List Char) :=
  match skipBlank spaced cs with
  | [] => some (.stop, [])
  | c :: rest => nextAt? spaced c rest

theorem next?_nil {cs : List Char} (h : skipBlank spaced cs = []) :
    next? spaced cs = some (.stop, []) := by rw [next?, h]

theorem next?_cons {c : Char} {cs rest : List Char} (h : skipBlank spaced cs = c :: rest) :
    next? spaced cs = nextAt? spaced c rest := by rw [next?, h]

theorem nextAt?_stop {c : Char} {cs rest : List Char}
    (h : nextAt? spaced c cs = some (.stop, rest)) : c = ')' ∧ rest = ')' :: cs := by
  unfold nextAt? at h
  split at h
  case h_1 =>
    cases h
    exact ⟨rfl, rfl⟩
  case h_2 | h_4 | h_8 | h_9 =>
    obtain ⟨r, -, h⟩ := Option.map_eq_some_iff.mp h
    cases h
  all_goals cases h

/-- Goes on behind the closing parenthesis of a group whose body is read. -/
def behindGroup (next : Expr → List (List Char) → List Char →
      Option ((Expr × List (List Char)) × List Char)) :
    (Expr × List (List Char)) × List Char → Option ((Expr × List (List Char)) × List Char)
  | ((body, names), ')' :: rest) => next body names rest
  | _ => none

theorem behindGroup_eq_some {next : Expr → List (List Char) → List Char →
      Option ((Expr × List (List Char)) × List Char)}
    {group r : (Expr × List (List Char)) × List Char} (h : behindGroup next group = some r) :
    ∃ body names rest, group = ((body, names), ')' :: rest) ∧ next body names rest = some r := by
  unfold behindGroup at h
  split at h
  · exact ⟨_, _, _, rfl, h⟩
  · cases h

/-- Reads the body of a group, in which blanks count or not, and goes on behind it. -/
def parseGroup (fuel : Nat) (spaced inner : Bool) (names : List (List Char))
    (branches items : List Expr) (change : FlagChange) (cs : List Char) :
    Option ((Expr × List (List Char)) × List Char) :=
  (parseBranches fuel inner names [] [] cs).bind (behindGroup fun body names rest =>
    parseBranches fuel spaced names branches (.group change body :: items) rest)

/-- Goes on behind a piece of some branches. -/
def Next.goOn (fuel : Nat) (spaced : Bool) (names : List (List Char))
    (branches items : List Expr) :
    Next × List Char → Option ((Expr × List (List Char)) × List Char)
  | (.stop, rest) => some ((ofBranches ((ofItems items.reverse :: branches).reverse), names), rest)
  | (.bar, rest) => parseBranches fuel spaced names (ofItems items.reverse :: branches) [] rest
  | (.opening (.flags change), rest) =>
    parseBranches fuel ((change.value? .ignoreWhitespace).getD spaced) names branches
      (.flags change :: items) rest
  | (.opening (.plain change), rest) =>
    parseGroup fuel spaced ((change.value? .ignoreWhitespace).getD spaced) names branches items
      change rest
  | (.opening (.named name), rest) =>
    if names.contains name then none
    else parseGroup fuel spaced spaced (name :: names) branches items [] rest
  | (.item e, rest) => parseBranches fuel spaced names branches (e :: items) rest
  | (.counts least most, rest) =>
    (repeatable? items).bind fun r =>
      parseBranches fuel spaced names branches (.repeat r.1 least most :: r.2) rest

theorem parseBranches_succ {fuel : Nat} {names : List (List Char)} {branches items : List Expr}
    {cs : List Char} :
    parseBranches (fuel + 1) spaced names branches items cs
      = (next? spaced cs).bind (Next.goOn fuel spaced names branches items) := by
  rw [parseBranches]
  split
  · next heq => rw [next?_nil heq]; rfl
  · next heq => rw [next?_cons heq]; rfl
  · next heq =>
    rw [next?_cons heq, nextAt?, Option.bind_map]
    refine congrArg (Option.bind _) (funext fun r => ?_)
    obtain ⟨o, rest⟩ := r
    cases o <;> rfl
  · next heq => rw [next?_cons heq]; rfl
  · next heq => rw [next?_cons heq, nextAt?, Option.bind_map]; rfl
  iterate 3
    · next heq => rw [next?_cons heq]; rfl
  · next heq =>
    rw [next?_cons heq, nextAt?, Option.bind_map]
    exact Option.bind_comm _ _
  · next heq =>
    rw [next?_cons heq, nextAt?, Option.bind_map]
    rfl
  iterate 3
    · next heq => rw [next?_cons heq]; rfl
  · next c rest _ _ _ _ _ _ _ _ _ _ _ _ heq =>
    have hliteral : nextAt? spaced c rest = some (.item (.literal c false), rest) := by
      rw [nextAt?] <;> assumption
    rw [next?_cons heq, hliteral]
    rfl

/-! ## Rows -/

/-- The branches of some rows. The items of a row and the rows are kept last one first. -/
def branchesOf (rows : List (List Expr)) : List Expr := rows.map fun row => ofItems row.reverse

/-- The pattern of some rows. -/
def ofRows (rows : List (List Expr)) : Expr := ofBranches (branchesOf rows).reverse

/-- A row of items and the same row, maybe with some anchors before it. -/
def Anchored (anchors row row' : List Expr) : Prop := row' = row ∨ row' = row ++ anchors

variable {anchors : List Expr}

theorem Anchored.cons {row row' : List Expr} (h : Anchored anchors row row') (item : Expr) :
    Anchored anchors (item :: row) (item :: row') := by
  rcases h with rfl | rfl
  · exact .inl rfl
  · exact .inr rfl

theorem Anchored.repeatable {row row' rest : List Expr} {body : Expr}
    (h : Anchored anchors row row') (hbody : repeatable? row = some (body, rest)) :
    ∃ rest', repeatable? row' = some (body, rest') ∧ Anchored anchors rest rest' := by
  cases row with
  | nil => cases hbody
  | cons item row =>
    obtain ⟨row', rfl, hrow⟩ : ∃ tail, row' = item :: tail ∧ Anchored anchors row tail := by
      rcases h with rfl | rfl
      · exact ⟨row, rfl, .inl rfl⟩
      · exact ⟨row ++ anchors, rfl, .inr rfl⟩
    have hkeep : ∀ tail, repeatable? (item :: tail) = (repeatable? (item :: row)).map
        fun r => (r.1, tail) := fun tail => by cases item <;> rfl
    rw [hkeep row', hbody]
    have hrest : rest = row := by
      rw [hkeep row] at hbody
      obtain ⟨r, -, heq⟩ := Option.map_eq_some_iff.mp hbody
      exact (congrArg Prod.snd heq).symm
    exact ⟨row', rfl, hrest ▸ hrow⟩

/-- What comes of reading a text with anchors before the first row and more behind its end: rows
with the anchors, or the state in which the end is passed. -/
def Outcome (behind : List Char) (anchors : List Expr) (slack : Nat) (rest : List Char) (e : Expr)
    (names : List (List Char)) (run : Option ((Expr × List (List Char)) × List Char)) : Prop :=
  ∃ rows rows', e = ofRows rows ∧ List.Forall₂ (Anchored anchors) rows rows' ∧
    ((∃ rest', run = some ((ofRows rows', names), rest') ∧ (rest = [] → rest' = []) ∧
        (rest ≠ [] → rest' = rest ++ behind))
      ∨ (rest = [] ∧ ∃ left spaced row' more', slack < left ∧ rows' = row' :: more' ∧
        run = parseBranches left spaced names (branchesOf more') row' behind))

variable {behind : List Char}

theorem eq_of_anchored {rows rows' : List (List Expr)}
    (h : List.Forall₂ (Anchored []) rows rows') : rows' = rows := by
  induction h with
  | nil => rfl
  | cons hrow _ ih =>
    rcases hrow with rfl | rfl
    · rw [ih]
    · rw [ih, List.append_nil]

/-- A pattern that ends before the end of the text is read alike if there is more behind it. -/
theorem Outcome.nested {slack : Nat} {c : Char} {rest : List Char} {e : Expr}
    {names : List (List Char)} {run : Option ((Expr × List (List Char)) × List Char)}
    (h : Outcome behind [] slack (c :: rest) e names run) :
    run = some ((e, names), c :: (rest ++ behind)) := by
  obtain ⟨rows, rows', rfl, hrows, ⟨rest', hrun, -, hrest⟩ | ⟨hnil, -⟩⟩ := h
  · rw [hrun, eq_of_anchored hrows, hrest (by simp)]
    rfl
  · cases hnil

/-- A piece of some branches is read alike if there is more behind the text. -/
theorem Closing.nextAt? (hb : Closing behind) {c : Char} {next : Next}
    {cs rest : List Char} (h : nextAt? spaced c cs = some (next, rest)) :
    ∃ rest', nextAt? spaced c (cs ++ behind) = some (next, rest') ∧ Extends behind rest rest' := by
  unfold Pattern.nextAt? at h
  split at h
  case h_2 =>
    obtain ⟨⟨o, after⟩, hopening, h⟩ := Option.map_eq_some_iff.mp h
    cases h
    obtain ⟨after', hopening', hafter⟩ := hb.parseOpening hopening
    exact ⟨after', congrArg (Option.map _) hopening', hafter⟩
  case h_4 =>
    obtain ⟨⟨set, after⟩, hset, h⟩ := Option.map_eq_some_iff.mp h
    cases h
    exact ⟨_, congrArg (Option.map _) (hb.parseClass hset), .append _⟩
  case h_5 | h_6 | h_7 =>
    cases h
    exact ⟨_, rfl, hb.dropReluctance (.append cs)⟩
  case h_8 =>
    obtain ⟨⟨counts, after⟩, hcounts, h⟩ := Option.map_eq_some_iff.mp h
    cases h
    obtain ⟨after', hcounts', hafter⟩ := hb.parseCounts hcounts
    exact ⟨after', congrArg (Option.map _) hcounts', hafter⟩
  case h_9 =>
    obtain ⟨⟨escape, after⟩, hescape, h⟩ := Option.map_eq_some_iff.mp h
    cases h
    obtain ⟨after', hescape', hafter⟩ := hb.parseEscape hescape
    exact ⟨after', congrArg (Option.map _) hescape', hafter⟩
  case h_13 =>
    cases h
    exact ⟨_, by rw [Pattern.nextAt?] <;> assumption, .append cs⟩
  all_goals
    cases h
    exact ⟨_, rfl, .append _⟩

/-- Branches that are read with some fuel are read on behind the end of the text. -/
def ReadsOn (behind : List Char) (slack fuel : Nat) : Prop :=
  ∀ {anchors : List Expr} {spaced : Bool} {names names' : List (List Char)}
    {rows rows' : List (List Expr)} {items items' : List Expr} {cs longer rest : List Char}
    {e : Expr},
    List.Forall₂ (Anchored anchors) rows rows' → Anchored anchors items items' →
    Extends behind cs longer →
    parseBranches fuel spaced names (branchesOf rows) items cs = some ((e, names'), rest) →
    Outcome behind anchors slack rest e names'
      (parseBranches (fuel + slack) spaced names (branchesOf rows') items' longer)

variable {fuel slack : Nat} {names names' : List (List Char)}
  {rows rows' : List (List Expr)} {items items' : List Expr} {cs longer rest : List Char} {e : Expr}

theorem ReadsOn.group (ih : ReadsOn behind slack fuel) {inner : Bool} {change : FlagChange}
    (hrows : List.Forall₂ (Anchored anchors) rows rows') (hitems : Anchored anchors items items')
    (hcs : Extends behind cs longer)
    (h : parseGroup fuel spaced inner names (branchesOf rows) items change cs
      = some ((e, names'), rest)) :
    Outcome behind anchors slack rest e names'
      (parseGroup (fuel + slack) spaced inner names (branchesOf rows') items' change longer) := by
  obtain ⟨group, hbody, h⟩ := Option.bind_eq_some_iff.mp h
  obtain ⟨body, names₁, after, rfl, h⟩ := behindGroup_eq_some h
  have hinner := (ih .nil (.inl rfl) hcs hbody).nested
  rw [branchesOf, List.map_nil] at hinner
  rw [parseGroup, hinner]
  exact ih hrows (hitems.cons _) (.append after) h

theorem ReadsOn.goOn (ih : ReadsOn behind slack fuel) {next : Next} (hne : next ≠ .stop)
    (hrows : List.Forall₂ (Anchored anchors) rows rows') (hitems : Anchored anchors items items')
    (hcs : Extends behind cs longer)
    (h : Next.goOn fuel spaced names (branchesOf rows) items (next, cs)
      = some ((e, names'), rest)) :
    Outcome behind anchors slack rest e names'
      (Next.goOn (fuel + slack) spaced names (branchesOf rows') items' (next, longer)) := by
  cases next with
  | stop => exact absurd rfl hne
  | bar => exact ih (.cons hitems hrows) (.inl rfl) hcs h
  | opening o =>
    cases o with
    | flags change => exact ih hrows (hitems.cons _) hcs h
    | plain change => exact ih.group hrows hitems hcs h
    | named name =>
      rw [Next.goOn] at h ⊢
      split at h
      · cases h
      · next hnew =>
        rw [if_neg hnew]
        exact ih.group hrows hitems hcs h
  | item e => exact ih hrows (hitems.cons _) hcs h
  | counts least most =>
    obtain ⟨⟨body, before⟩, hbody, h⟩ := Option.bind_eq_some_iff.mp h
    obtain ⟨before', hbody', hbefore⟩ := hitems.repeatable hbody
    rw [Next.goOn, hbody']
    exact ih hrows (hbefore.cons _) hcs h

/-- Reading a text with anchors before the first row and more behind its end. -/
theorem Closing.parseBranches (hb : Closing behind)
    (hrows : List.Forall₂ (Anchored anchors) rows rows') (hitems : Anchored anchors items items')
    (hcs : Extends behind cs longer)
    (h : parseBranches fuel spaced names (branchesOf rows) items cs = some ((e, names'), rest)) :
    Outcome behind anchors slack rest e names'
      (parseBranches (fuel + slack) spaced names (branchesOf rows') items' longer) := by
  induction fuel
    generalizing anchors spaced names names' rows rows' items items' cs longer rest e with
  | zero => cases h
  | succ fuel ih =>
    have hskip := hb.skipBlank_extends spaced hcs
    have hall : List.Forall₂ (Anchored anchors) (items :: rows) (items' :: rows') :=
      .cons hitems hrows
    rw [Nat.add_right_comm]
    rw [parseBranches_succ] at h
    cases heq : Pattern.skipBlank spaced cs with
    | nil =>
      rw [next?_nil heq] at h
      cases h
      rw [heq] at hskip
      refine ⟨items :: rows, items' :: rows', rfl, hall, ?_⟩
      rcases hskip with hskip | ⟨-, hskip⟩
      · refine .inr ⟨rfl, fuel + slack + 1, spaced, items', rows', by omega, rfl, ?_⟩
        rw [parseBranches_succ, parseBranches_succ, next?, next?, hskip, List.nil_append,
          hb.skipBlank_self]
      · refine .inl ⟨[], ?_, fun _ => rfl, fun hne => absurd rfl hne⟩
        rw [parseBranches_succ, next?_nil hskip]
        rfl
    | cons c inner =>
      rw [heq] at hskip
      rw [next?_cons heq] at h
      rw [parseBranches_succ, next?_cons hskip.cons]
      obtain ⟨⟨next, after⟩, hnext, h⟩ := Option.bind_eq_some_iff.mp h
      obtain ⟨after', hnext', hafter⟩ := hb.nextAt? hnext
      rw [hnext', Option.bind_some]
      by_cases hne : next = .stop
      · -- the end of a group
        subst hne
        obtain ⟨rfl, rfl⟩ := nextAt?_stop hnext
        cases h
        exact ⟨_, _, rfl, hall, .inl ⟨after', rfl, nofun, hafter.of_ne_nil⟩⟩
      · exact ReadsOn.goOn ih hne hrows hitems hafter h

end HttpContract.Pattern
