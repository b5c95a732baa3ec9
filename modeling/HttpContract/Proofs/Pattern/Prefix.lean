import HttpContract.Proofs.Pattern.Rows

/-!
# Pattern — reading a text without what stands behind it

The other direction of reading on behind the end. A reader that goes through a text with a closing
parenthesis behind it, and stops before that, reads the text alone in the same way.
-/

namespace HttpContract.Pattern

variable {spaced : Bool}

/-! ## Readers do not go back -/

theorem length_dropWhile_le (p : Char → Bool) (cs : List Char) :
    (cs.dropWhile p).length ≤ cs.length := (List.dropWhile_suffix p).length_le

theorem length_digitsFrom_le (fuel : Nat) (cs : List Char) :
    (digitsFrom spaced fuel cs).2.length ≤ cs.length := by
  induction fuel generalizing cs with
  | zero => exact Nat.le_refl _
  | succ fuel ih =>
    cases cs with
    | nil => exact Nat.le_refl _
    | cons c rest =>
      rw [digitsFrom]
      split
      · have hrest := ih (skipBlank spaced rest)
        have hskip := length_skipBlank_le spaced rest
        simp only [List.length_cons]
        omega
      · exact Nat.le_refl _

theorem length_parseCount_le {cs rest : List Char} {n : Nat}
    (h : parseCount spaced cs = some (n, rest)) : rest.length ≤ cs.length := by
  simp only [parseCount] at h
  split at h
  · cases h
  · cases h
    have hdigits := @length_digitsFrom_le spaced (skipWhiteSpace cs).length (skipWhiteSpace cs)
    have hstart : (skipWhiteSpace cs).length ≤ cs.length := length_dropWhile_le _ cs
    refine Nat.le_trans (length_skipBlank_le spaced _) ?_
    refine Nat.le_trans (length_dropWhile_le _ _) ?_
    exact Nat.le_trans hdigits hstart

/-- What stands behind the first character that counts. -/
theorem length_lt_of_skipBlank {cs rest : List Char} {c : Char}
    (h : skipBlank spaced cs = c :: rest) : rest.length < cs.length := by
  have hskip := length_skipBlank_le spaced cs
  rw [h, List.length_cons] at hskip
  exact hskip

theorem length_parseHexFixed_le {n value r : Nat} {cs rest : List Char}
    (h : parseHexFixed spaced n value cs = some (r, rest)) : rest.length ≤ cs.length := by
  induction n generalizing value cs with
  | zero =>
    cases h
    exact Nat.le_refl _
  | succ n ih =>
    rw [parseHexFixed] at h
    split at h
    · cases h
    · next heq =>
      have hlt := length_lt_of_skipBlank heq
      split at h
      · have hle := ih h
        omega
      · cases h

theorem length_parseHexBraced_lt {fuel : Nat} {ds rs cs rest : List Char}
    (h : parseHexBraced spaced fuel ds cs = some (rs, rest)) : rest.length < cs.length := by
  induction fuel generalizing ds cs with
  | zero => cases h
  | succ fuel ih =>
    rw [parseHexBraced] at h
    split at h
    · cases h
    · next heq =>
      have hlt := length_lt_of_skipBlank heq
      split at h
      · cases h
        exact hlt
      · split at h
        · have hle := ih h
          omega
        · cases h

theorem length_parseHex_le {kind : Char} {r : Char × Bool} {cs rest : List Char}
    (h : parseHex spaced kind cs = some (r, rest)) : rest.length ≤ cs.length := by
  rw [parseHex] at h
  split at h
  · cases h
  · next heq =>
    obtain ⟨⟨ds, after⟩, hbraced, h⟩ := Option.bind_eq_some_iff.mp h
    simp only at h
    split at h
    · cases h
    · obtain ⟨c, -, h⟩ := Option.bind_eq_some_iff.mp h
      cases h
      have hlt := length_lt_of_skipBlank heq
      have hbraced := length_parseHexBraced_lt hbraced
      have hskip := length_skipBlank_le spaced after
      omega
  · obtain ⟨⟨n, after⟩, hfixed, h⟩ := Option.bind_eq_some_iff.mp h
    obtain ⟨c, -, h⟩ := Option.bind_eq_some_iff.mp h
    cases h
    have hskip := length_skipBlank_le spaced after
    have hstart := length_skipBlank_le spaced cs
    have hfixed := length_parseHexFixed_le hfixed
    exact Nat.le_trans hskip (Nat.le_trans hfixed hstart)

theorem length_parseBraced_lt {fuel : Nat} {name rs cs rest : List Char}
    (h : parseBraced spaced fuel name cs = some (rs, rest)) : rest.length < cs.length := by
  induction fuel generalizing name cs with
  | zero => cases h
  | succ fuel ih =>
    rw [parseBraced] at h
    split at h
    · cases h
    · next heq =>
      have hlt := length_lt_of_skipBlank heq
      split at h
      · cases h
        exact hlt
      · exact Nat.lt_trans (ih h) hlt

theorem length_parseProperty_le {r : PropertyQuery × Bool} {cs rest : List Char}
    (h : parseProperty spaced cs = some (r, rest)) : rest.length ≤ cs.length := by
  rw [parseProperty] at h
  split at h
  · cases h
  · next heq =>
    obtain ⟨⟨name, after⟩, hbraced, h⟩ := Option.bind_eq_some_iff.mp h
    cases h
    exact Nat.le_of_lt (Nat.lt_trans (length_parseBraced_lt hbraced) (length_lt_of_skipBlank heq))
  · cases h
  · next heq =>
    cases h
    exact Nat.le_trans (length_skipBlank_le spaced _) (Nat.le_of_lt (length_lt_of_skipBlank heq))

theorem length_parseBoundaryName_le {a : Anchor} {cs rest : List Char}
    (h : parseBoundaryName spaced cs = some (a, rest)) : rest.length ≤ cs.length := by
  unfold parseBoundaryName at h
  split at h
  · simp only at h
    split at h
    · cases h
    · split at h
      · cases h
        exact Nat.le_refl _
      · split at h
        · cases h
        · next hbraced =>
          have hlt := length_parseBraced_lt hbraced
          simp only [List.length_cons]
          split at h
          iterate 4
            · cases h
              omega
          · cases h
  · cases h
    exact Nat.le_refl _

theorem length_parseEscape_lt {e : Escape} {cs rest : List Char}
    (h : parseEscape spaced cs = some (e, rest)) : rest.length < cs.length := by
  cases cs with
  | nil => cases h
  | cons c cs =>
    rw [List.length_cons, Nat.lt_succ_iff]
    simp only [parseEscape] at h
    split at h
    · cases h
    split at h
    · obtain ⟨⟨r, after⟩, hr, h⟩ := Option.map_eq_some_iff.mp h
      cases h
      exact length_parseHex_le hr
    split at h
    · obtain ⟨⟨r, after⟩, hr, h⟩ := Option.map_eq_some_iff.mp h
      cases h
      exact length_parseProperty_le hr
    iterate 4
      split at h
      · cases h
        exact Nat.le_refl _
    split at h
    case h_9 =>
      obtain ⟨⟨a, after⟩, ha, h⟩ := Option.map_eq_some_iff.mp h
      cases h
      exact length_parseBoundaryName_le ha
    case h_13 => cases h
    all_goals
      cases h
      exact Nat.le_refl _

theorem length_posixName?_le {negated : Bool} {set : ClassExpr} {cs rest : List Char}
    (h : posixName? negated cs = some (set, rest)) : rest.length ≤ cs.length := by
  unfold posixName? at h
  simp only at h
  split at h
  · next after heq =>
    obtain ⟨kind, -, heq'⟩ := Option.map_eq_some_iff.mp h
    cases heq'
    have hdrop := congrArg List.length heq
    simp only [List.length_drop, List.length_cons] at hdrop
    omega
  · cases h

theorem length_posixClass?_le {set : ClassExpr} {cs rest : List Char}
    (h : posixClass? cs = some (set, rest)) : rest.length ≤ cs.length := by
  unfold posixClass? at h
  split at h
  · exact Nat.le_trans (length_posixName?_le h) (Nat.le_add_right _ 2)
  · exact Nat.le_trans (length_posixName?_le h) (Nat.le_add_right _ 1)
  · cases h

theorem length_parseMember_lt {m : Member} {cs rest : List Char}
    (h : parseMember spaced cs = some (m, rest)) : rest.length < cs.length := by
  unfold parseMember at h
  split at h
  · cases h
  · split at h
    · next hescape =>
      cases h
      exact Nat.lt_succ_of_lt (length_parseEscape_lt hescape)
    · next hescape =>
      cases h
      exact Nat.lt_succ_of_lt (length_parseEscape_lt hescape)
    · cases h
  · cases h
    exact Nat.lt_succ_self _

theorem length_parseRange_lt {set : ClassExpr} {cs rest : List Char}
    (h : parseRange spaced cs = some (set, rest)) : rest.length < cs.length := by
  obtain ⟨⟨member, after⟩, hmember, h⟩ := Option.bind_eq_some_iff.mp h
  have hafter := length_parseMember_lt hmember
  have hskip := length_skipBlank_le spaced after
  simp only at h
  split at h
  · cases h
  · next afterDash heq =>
    rw [heq, List.length_cons] at hskip
    have hskip' := length_skipBlank_le spaced afterDash
    split at h
    · cases h
      simp only [List.length_cons]
      omega
    · cases h
      simp only [List.length_cons]
      omega
    · cases h
    · obtain ⟨⟨last, end'⟩, hlast, h⟩ := Option.bind_eq_some_iff.mp h
      have hend := length_parseMember_lt hlast
      simp only at h
      split at h
      · split at h
        · cases h
          omega
        · cases h
      · cases h
  · cases h
    omega

theorem length_openingMembers_le {fuel : Nat} {set set' : ClassExpr} {cs rest : List Char}
    (h : openingMembers spaced fuel set cs = some (set', rest)) : rest.length ≤ cs.length := by
  induction fuel generalizing set cs with
  | zero => cases h
  | succ fuel ih =>
    unfold openingMembers at h
    split at h
    · cases h
    · next inner =>
      have hrest := ih h
      have hskip := length_skipBlank_le spaced inner
      simp only [List.length_cons]
      omega
    · next inner =>
      split at h
      · split at h
        · cases h
        · cases h
          exact Nat.le_succ_of_le (length_skipBlank_le spaced inner)
      · cases h
        exact Nat.le_refl _
    · cases h
      exact Nat.le_refl _

theorem length_parseNegation_le (cs : List Char) :
    (parseNegation spaced cs).2.length ≤ cs.length := by
  unfold parseNegation
  split
  · next rest heq =>
    exact Nat.le_trans (length_skipBlank_le spaced rest) (Nat.le_of_lt (length_lt_of_skipBlank heq))
  · exact length_skipBlank_le spaced cs

theorem length_parseOpened_le {r : Bool × ClassExpr} {cs rest : List Char}
    (h : parseOpened spaced cs = some (r, rest)) : rest.length ≤ cs.length := by
  unfold parseOpened at h
  have hopened := @length_parseNegation_le spaced cs
  rcases hnegation : parseNegation spaced cs with ⟨negated, opened⟩
  rw [hnegation] at h hopened
  obtain ⟨⟨set, after⟩, hset, h⟩ := Option.map_eq_some_iff.mp h
  cases h
  exact Nat.le_trans (length_openingMembers_le hset) hopened

theorem length_pieceOf?_lt {p : Piece} {cs rest : List Char}
    (h : pieceOf? spaced cs = some (p, rest)) : rest.length < cs.length := by
  unfold pieceOf? at h
  split at h
  · cases h
  · rw [List.length_cons, Nat.lt_succ_iff]
    split at h
    · next hposix =>
      cases h
      exact length_posixClass?_le hposix
    · obtain ⟨⟨r, after⟩, hopened, h⟩ := Option.map_eq_some_iff.mp h
      cases h
      exact length_parseOpened_le hopened
  iterate 4
    · cases h
      simp only [List.length_cons]
      omega
  · obtain ⟨⟨member, after⟩, hmember, h⟩ := Option.map_eq_some_iff.mp h
    cases h
    exact length_parseRange_lt hmember

theorem length_piece?_lt {p : Piece} {cs rest : List Char}
    (h : piece? spaced cs = some (p, rest)) : rest.length < cs.length :=
  Nat.lt_of_lt_of_le (length_pieceOf?_lt h) (length_skipBlank_le spaced cs)

theorem length_parseBrackets_lt {fuel : Nat} {waiting : Option (SetOperator × ClassExpr)}
    {set set' : ClassExpr} {cs rest : List Char}
    (h : parseBrackets spaced fuel waiting set cs = some (set', rest)) :
    rest.length < cs.length := by
  induction fuel generalizing waiting set set' cs rest with
  | zero => cases h
  | succ fuel ih =>
    rw [parseBrackets_succ] at h
    obtain ⟨⟨p, after⟩, hp, h⟩ := Option.bind_eq_some_iff.mp h
    have hafter := length_piece?_lt hp
    cases p with
    | close =>
      cases h
      exact hafter
    | set members => exact Nat.lt_trans (ih h) hafter
    | nested negated opening =>
      obtain ⟨⟨body, afterBody⟩, hbody, h⟩ := Option.bind_eq_some_iff.mp h
      exact Nat.lt_trans (ih h) (Nat.lt_trans (ih hbody) hafter)
    | operator o => exact Nat.lt_trans (ih h) hafter

theorem length_parseClass_lt {e : Expr} {cs rest : List Char}
    (h : parseClass spaced cs = some (e, rest)) : rest.length < cs.length := by
  rw [parseClass_eq] at h
  obtain ⟨⟨r, after⟩, hopened, h⟩ := Option.bind_eq_some_iff.mp h
  obtain ⟨⟨body, afterBody⟩, hbody, h⟩ := Option.bind_eq_some_iff.mp h
  cases h
  exact Nat.lt_of_lt_of_le (length_parseBrackets_lt hbody) (length_parseOpened_le hopened)

theorem length_parseFlags_lt {negating : Bool} {change : FlagChange} {r : FlagChange × Bool}
    {cs rest : List Char} (h : parseFlags negating change cs = some (r, rest)) :
    rest.length < cs.length := by
  induction cs generalizing negating change with
  | nil => cases h
  | cons c cs ih =>
    rw [List.length_cons, Nat.lt_succ_iff]
    unfold parseFlags at h
    split at h
    · cases h
      exact Nat.le_refl _
    split at h
    · cases h
      exact Nat.le_refl _
    split at h
    · split at h
      · cases h
      · cases h
      · cases h
      · exact Nat.le_of_lt (ih h)
    · split at h
      · cases h
      · split at h
        · cases h
        · exact Nat.le_of_lt (ih h)

theorem length_parseName_lt {name rs cs rest : List Char}
    (h : parseName name cs = some (rs, rest)) : rest.length < cs.length := by
  induction cs generalizing name with
  | nil => cases h
  | cons c cs ih =>
    rw [List.length_cons, Nat.lt_succ_iff]
    unfold parseName at h
    split at h
    · split at h
      · cases h
      · cases h
        exact Nat.le_refl _
    · split at h
      · exact Nat.le_of_lt (ih h)
      · cases h

theorem length_parseOpening_le {o : Opening} {cs rest : List Char}
    (h : parseOpening spaced cs = some (o, rest)) : rest.length ≤ cs.length := by
  have hskip := length_skipBlank_le spaced cs
  unfold parseOpening at h
  split at h
  iterate 4
    · cases h
  iterate 2
    · next heq =>
      obtain ⟨⟨name, after⟩, hname, h⟩ := Option.map_eq_some_iff.mp h
      cases h
      have hlt := length_parseName_lt hname
      rw [heq] at hskip
      simp only [List.length_cons] at hskip ⊢
      omega
  · next heq =>
    obtain ⟨⟨⟨change, grouping⟩, after⟩, hflags, h⟩ := Option.bind_eq_some_iff.mp h
    have hlt := length_parseFlags_lt hflags
    rw [heq] at hskip
    simp only [List.length_cons] at hskip h
    split at h
    · cases h
      omega
    · split at h
      · cases h
      · cases h
        omega
  · cases h
    exact hskip

theorem length_dropReluctance_le (cs : List Char) : (dropReluctance cs).length ≤ cs.length := by
  unfold dropReluctance
  split
  · exact Nat.le_succ _
  · exact Nat.le_refl _

theorem length_parseLimits_le {r : Nat × Option Nat} {cs rest : List Char}
    (h : parseLimits spaced cs = some (r, rest)) : rest.length ≤ cs.length := by
  have hskip := length_skipBlank_le spaced cs
  unfold parseLimits at h
  split at h
  · next least after hleast =>
    have hle := length_parseCount_le hleast
    have hskip' := length_skipBlank_le spaced after
    rw [List.length_cons] at hle
    split at h
    · next heq =>
      cases h
      rw [heq] at hskip'
      omega
    · obtain ⟨⟨most, after'⟩, hmost, h⟩ := Option.map_eq_some_iff.mp h
      cases h
      have hle' := length_parseCount_le hmost
      simp only
      omega
  · next hleast =>
    cases h
    have hle := length_parseCount_le hleast
    omega
  · cases h

theorem length_parseCounts_le {r : Nat × Option Nat} {cs rest : List Char}
    (h : parseCounts spaced cs = some (r, rest)) : rest.length ≤ cs.length := by
  unfold parseCounts at h
  split at h
  · next counts after hlimits =>
    split at h
    · cases h
      have hle := length_parseLimits_le hlimits
      have hdrop := length_dropReluctance_le (skipBlank spaced after)
      have hskip := length_skipBlank_le spaced after
      rw [List.length_cons] at hle
      omega
    · cases h
  · cases h

theorem length_nextAt?_le {c : Char} {next : Next} {cs rest : List Char} (hne : next ≠ .stop)
    (h : nextAt? spaced c cs = some (next, rest)) : rest.length ≤ cs.length := by
  unfold nextAt? at h
  split at h
  · cases h
    exact absurd rfl hne
  · obtain ⟨⟨o, after⟩, hopening, h⟩ := Option.map_eq_some_iff.mp h
    cases h
    exact length_parseOpening_le hopening
  · cases h
    exact Nat.le_refl _
  · obtain ⟨⟨set, after⟩, hset, h⟩ := Option.map_eq_some_iff.mp h
    cases h
    exact Nat.le_of_lt (length_parseClass_lt hset)
  iterate 3
    · cases h
      exact length_dropReluctance_le cs
  · obtain ⟨⟨counts, after⟩, hcounts, h⟩ := Option.map_eq_some_iff.mp h
    cases h
    exact length_parseCounts_le hcounts
  · obtain ⟨⟨escape, after⟩, hescape, h⟩ := Option.map_eq_some_iff.mp h
    cases h
    exact Nat.le_of_lt (length_parseEscape_lt hescape)
  iterate 4
    · cases h
      exact Nat.le_refl _

/-- Where branches end: no later than they may, at a closing parenthesis or at the end. -/
structure Stops (cs rest : List Char) : Prop where
  length : rest.length ≤ cs.length
  head : rest = [] ∨ ∃ behind, rest = ')' :: behind

theorem Stops.of_le {cs ds rest : List Char} (h : Stops ds rest) (hle : ds.length ≤ cs.length) :
    Stops cs rest := ⟨Nat.le_trans h.length hle, h.head⟩

/-- Branches that are read with some fuel stop where they may. -/
def AlwaysStops (fuel : Nat) : Prop :=
  ∀ {spaced : Bool} {names : List (List Char)} {branches items : List Expr}
    {r : Expr × List (List Char)} {cs rest : List Char},
    parseBranches fuel spaced names branches items cs = some (r, rest) → Stops cs rest

section Stopping

variable {fuel : Nat} {names : List (List Char)} {branches items : List Expr}
  {r : Expr × List (List Char)} {cs rest : List Char}

theorem AlwaysStops.group (h : AlwaysStops fuel) {inner : Bool} {change : FlagChange}
    (hread : parseGroup fuel spaced inner names branches items change cs = some (r, rest)) :
    Stops cs rest := by
  obtain ⟨group, hbody, hread⟩ := Option.bind_eq_some_iff.mp hread
  obtain ⟨body, names', after, rfl, hread⟩ := behindGroup_eq_some hread
  have hle := (h hbody).length
  rw [List.length_cons] at hle
  exact (h hread).of_le (Nat.le_of_succ_le hle)

theorem AlwaysStops.goOn (h : AlwaysStops fuel) {next : Next} (hne : next ≠ .stop)
    (hread : Next.goOn fuel spaced names branches items (next, cs) = some (r, rest)) :
    Stops cs rest := by
  cases next with
  | stop => exact absurd rfl hne
  | bar => exact h hread
  | opening o =>
    cases o with
    | flags change => exact h hread
    | plain change => exact h.group hread
    | named name =>
      rw [Next.goOn] at hread
      split at hread
      · cases hread
      · exact h.group hread
  | item e => exact h hread
  | counts least most =>
    obtain ⟨repeated, -, hread⟩ := Option.bind_eq_some_iff.mp hread
    exact h hread

theorem parseBranches_stops
    (h : parseBranches fuel spaced names branches items cs = some (r, rest)) : Stops cs rest := by
  induction fuel generalizing spaced names branches items r cs rest with
  | zero => cases h
  | succ fuel ih =>
    rw [parseBranches_succ] at h
    cases heq : skipBlank spaced cs with
    | nil =>
      rw [next?_nil heq] at h
      cases h
      exact ⟨Nat.zero_le _, .inl rfl⟩
    | cons c inner =>
      have hlt := length_lt_of_skipBlank heq
      rw [next?_cons heq] at h
      obtain ⟨⟨next, after⟩, hnext, h⟩ := Option.bind_eq_some_iff.mp h
      by_cases hne : next = .stop
      · subst hne
        obtain ⟨rfl, rfl⟩ := nextAt?_stop hnext
        cases h
        exact ⟨hlt, .inr ⟨_, rfl⟩⟩
      · have hle := length_nextAt?_le hne hnext
        exact (AlwaysStops.goOn ih hne h).of_le (by omega)

end Stopping

/-! ## Readers that fail alone -/

/-- What stands behind a text in a group: the end of the group and the end of the line. -/
def closing : List Char := [')', '$']

theorem closing_closing : Closing closing := ⟨⟨_, .inl rfl⟩, by decide, by decide⟩

/-- The rest of a text that a reader has left behind. -/
def Behind (left : List Char) : Prop := left = closing ∨ left = ['$'] ∨ left = []

/-- Blanks end before the closing, or a comment takes it, too. -/
theorem skipBlank_closing {cs : List Char} (h : skipBlank spaced cs = []) :
    skipBlank spaced (cs ++ closing) = closing ∨ skipBlank spaced (cs ++ closing) = [] := by
  have hskip := closing_closing.skipBlank spaced cs
  rw [h] at hskip
  exact hskip.imp id And.right

theorem parseCount_none {cs longer : List Char} (hcs : Extends closing cs longer)
    (h : parseCount spaced cs = none) : parseCount spaced longer = none := by
  obtain rfl | ⟨rfl, rfl⟩ := hcs
  · have hstart : skipWhiteSpace (cs ++ closing) = skipWhiteSpace cs ++ closing :=
      closing_closing.dropWhile (by decide) (by decide) cs
    obtain ⟨hdigits, -⟩ := closing_closing.digitsFrom spaced (Nat.le_refl _) (Nat.le_refl _)
      (.append (skipWhiteSpace cs))
    simp only [parseCount] at h ⊢
    rw [hstart, hdigits]
    split at h
    case isTrue hfails => rw [if_pos hfails]
    case isFalse => cases h
  · exact h

theorem parseHexFixed_none {n value : Nat} {cs longer : List Char} (hcs : Extends closing cs longer)
    (h : parseHexFixed spaced n value cs = none) : parseHexFixed spaced n value longer = none := by
  induction n generalizing value cs longer with
  | zero => cases h
  | succ n ih =>
    have hskip := closing_closing.skipBlank_extends spaced hcs
    rw [parseHexFixed] at h ⊢
    cases heq : skipBlank spaced cs with
    | nil =>
      rw [heq] at hskip
      obtain hskip | ⟨-, hskip⟩ := hskip
      · rw [hskip]
        rfl
      · rw [hskip]
    | cons c rest =>
      rw [heq] at hskip h
      rw [hskip.cons]
      simp only at h ⊢
      split at h
      case isTrue hhex =>
        rw [if_pos hhex]
        exact ih (.append rest) h
      case isFalse hhex => rw [if_neg hhex]

theorem parseHexBraced_none {fuel more : Nat} {ds cs : List Char} (hfuel : cs.length < fuel)
    (h : parseHexBraced spaced fuel ds cs = none) :
    parseHexBraced spaced more ds (cs ++ closing) = none := by
  induction fuel generalizing ds cs more with
  | zero => exact absurd hfuel (Nat.not_lt_zero _)
  | succ fuel ih =>
    cases more with
    | zero => rfl
    | succ more =>
      rw [parseHexBraced] at h ⊢
      cases heq : skipBlank spaced cs with
      | nil =>
        obtain hskip | hskip := skipBlank_closing heq
        · rw [hskip]
          rfl
        · rw [hskip]
      | cons c rest =>
        have hlt := length_lt_of_skipBlank heq
        rw [heq] at h
        rw [closing_closing.skipBlank_cons heq]
        simp only at h ⊢
        split at h
        case isTrue => cases h
        case isFalse hbrace =>
          rw [if_neg hbrace]
          split at h
          case isTrue hhex =>
            rw [if_pos hhex]
            exact ih (by omega) h
          case isFalse hhex => rw [if_neg hhex]

/-- The digits of a code point that is not written in braces. -/
theorem parseHex_plain {kind c : Char} {cs rest : List Char}
    (h : skipBlank spaced cs = c :: rest) (hc : c ≠ '\x7b') :
    parseHex spaced kind cs = (parseHexFixed spaced
        (if kind = 'x' then 2 else if kind = 'u' then 4 else 8) 0 (c :: rest)).bind fun r =>
      (charOfCode? r.1).map fun d => ((d, decide (kind = 'x')), skipBlank spaced r.2) := by
  rw [parseHex, h]
  split
  · next h' => cases h'
  · next h' =>
    cases h'
    exact absurd rfl hc
  · refine congrArg (Option.bind _) (funext fun r => ?_)
    obtain ⟨n, after⟩ := r
    simp only
    cases charOfCode? n <;> rfl

theorem parseHex_none {kind : Char} {cs : List Char} (h : parseHex spaced kind cs = none) :
    parseHex spaced kind (cs ++ closing) = none := by
  cases heq : skipBlank spaced cs with
  | nil =>
    obtain hskip | hskip := skipBlank_closing heq
    · have hnone : ∀ n, parseHexFixed spaced (n + 1) 0 closing = none := fun n => by
        rw [parseHexFixed, closing_closing.skipBlank_self]
        rfl
      rw [parseHex_plain hskip (by decide)]
      split
      · rw [← closing, hnone]
        rfl
      · split <;> rw [← closing, hnone] <;> rfl
    · rw [parseHex, hskip]
  | cons c rest =>
    have hskip := closing_closing.skipBlank_cons heq
    by_cases hc : c = '\x7b'
    · subst hc
      rw [parseHex, heq] at h
      rw [parseHex, hskip]
      simp only at h ⊢
      cases hbraced : parseHexBraced spaced (rest.length + 1) [] rest with
      | none => rw [parseHexBraced_none (Nat.lt_succ_self _) hbraced]; rfl
      | some r =>
        have hlen : rest.length + 1 ≤ (rest ++ closing).length + 1 := by simp
        rw [closing_closing.parseHexBraced hlen hbraced]
        rw [hbraced] at h
        simp only [Option.bind_eq_bind, Option.bind_some] at h ⊢
        split at h
        · next hempty => rw [if_pos hempty]
        · next hempty =>
          rw [if_neg hempty]
          cases hcode : charOfCode? (ofDigits 16 hexValue r.1) with
          | none => rfl
          | some d =>
            rw [hcode] at h
            cases h
    · rw [parseHex_plain heq hc] at h
      rw [parseHex_plain hskip hc]
      cases hfixed : parseHexFixed spaced
          (if kind = 'x' then 2 else if kind = 'u' then 4 else 8) 0 (c :: rest) with
      | none =>
        have hnone := parseHexFixed_none (.append (c :: rest)) hfixed
        rw [List.cons_append] at hnone
        rw [hnone]
        rfl
      | some r =>
        obtain ⟨left, hleft, -⟩ := closing_closing.parseHexFixed (.append (c :: rest)) hfixed
        rw [List.cons_append] at hleft
        rw [hleft]
        rw [hfixed] at h
        simp only [Option.bind_some, Option.map_eq_none_iff] at h ⊢
        exact h

theorem parseBraced_none {fuel more : Nat} {name cs : List Char} (hfuel : cs.length < fuel)
    (h : parseBraced spaced fuel name cs = none) :
    parseBraced spaced more name (cs ++ closing) = none := by
  induction fuel generalizing name cs more with
  | zero => exact absurd hfuel (Nat.not_lt_zero _)
  | succ fuel ih =>
    cases more with
    | zero => rfl
    | succ more =>
      rw [parseBraced] at h ⊢
      cases heq : skipBlank spaced cs with
      | nil =>
        have hrest : ∀ more name, parseBraced spaced more name ['$'] = none := by
          rintro (_ | _ | more) name <;> cases spaced <;> rfl
        obtain hskip | hskip := skipBlank_closing heq
        · rw [hskip]
          exact hrest _ _
        · rw [hskip]
      | cons c rest =>
        have hlt := length_lt_of_skipBlank heq
        rw [heq] at h
        rw [closing_closing.skipBlank_cons heq]
        simp only at h ⊢
        split at h
        case isTrue => cases h
        case isFalse hbrace =>
          rw [if_neg hbrace]
          exact ih (by omega) h

theorem parseProperty_none {cs : List Char} (h : parseProperty spaced cs = none) :
    parseProperty spaced (cs ++ closing) = none
      ∨ ∃ r, parseProperty spaced (cs ++ closing) = some (r, ['$']) := by
  rw [parseProperty] at h ⊢
  cases heq : skipBlank spaced cs with
  | nil =>
    obtain hskip | hskip := skipBlank_closing heq
    · rw [hskip]
      exact .inr ⟨(.oneLetter ')', false), by cases spaced <;> rfl⟩
    · rw [hskip]
      exact .inl rfl
  | cons c rest =>
    rw [heq] at h
    rw [closing_closing.skipBlank_cons heq]
    left
    split at h
    · next h' => cases h'
    · next h' =>
      cases h'
      cases hbraced : parseBraced spaced (rest.length + 1) [] rest with
      | none =>
        simp only [parseBraced_none (Nat.lt_succ_self _) hbraced]
        rfl
      | some r =>
        rw [hbraced] at h
        cases h
    · next h' =>
      cases h'
      rfl
    · cases h

/-- The name of a boundary that is not read alone: its brace is left alone if nothing more of it
stands in the text. -/
theorem parseBoundaryName_none {cs : List Char} (h : parseBoundaryName spaced cs = none) :
    parseBoundaryName spaced (cs ++ closing) = none
      ∨ ∃ inner, cs = '\x7b' :: inner ∧ skipBlank spaced inner = []
        ∧ parseBoundaryName spaced (cs ++ closing) = some (.wordBoundary, cs ++ closing) := by
  unfold parseBoundaryName at h
  split at h
  · next inner =>
    simp only [List.cons_append, parseBoundaryName]
    cases heq : skipBlank spaced inner with
    | nil =>
      obtain hskip | hskip := skipBlank_closing heq
      · rw [hskip]
        exact .inr ⟨inner, rfl, heq, rfl⟩
      · rw [hskip]
        exact .inl rfl
    | cons first rest =>
      rw [heq] at h
      rw [closing_closing.skipBlank_cons heq]
      simp only at h ⊢
      left
      split at h
      · cases h
      · next hletters =>
        rw [if_neg hletters]
        cases hbraced : parseBraced spaced (inner.length + 1) [] inner with
        | none => rw [parseBraced_none (Nat.lt_succ_self _) hbraced]
        | some r =>
          have hlen : inner.length + 1 ≤ (inner ++ closing).length + 1 := by simp
          rw [closing_closing.parseBraced hlen hbraced]
          rw [hbraced] at h
          simp only at h ⊢
          split at h
          iterate 4
            · cases h
          · rfl
  · cases h

/-- What an escape can be that is not read alone. -/
theorem parseEscape_none {cs : List Char} (h : parseEscape spaced cs = none) :
    parseEscape spaced (cs ++ closing) = none
      ∨ (∃ e, parseEscape spaced (cs ++ closing) = some (e, ['$']))
      ∨ ∃ inner, skipBlank spaced inner = []
        ∧ parseEscape spaced (cs ++ closing)
          = some (.anchor .wordBoundary, '\x7b' :: (inner ++ closing)) := by
  cases cs with
  | nil => exact .inr (.inl ⟨.literal ')' false, by cases spaced <;> rfl⟩)
  | cons c cs =>
    simp only [parseEscape, List.cons_append] at h ⊢
    split at h
    · next hdigit =>
      rw [if_pos hdigit]
      exact .inl rfl
    next hdigit =>
    rw [if_neg hdigit]
    split at h
    · next hhex =>
      rw [if_pos hhex, parseHex_none (Option.map_eq_none_iff.mp h)]
      exact .inl rfl
    next hhex =>
    rw [if_neg hhex]
    split at h
    · next hproperty =>
      rw [if_pos hproperty]
      obtain hnone | ⟨r, hr⟩ := parseProperty_none (Option.map_eq_none_iff.mp h)
      · rw [hnone]
        exact .inl rfl
      · rw [hr]
        exact .inr (.inl ⟨_, rfl⟩)
    next hproperty =>
    rw [if_neg hproperty]
    split at h
    · cases h
    next hdigits =>
    rw [if_neg hdigits]
    split at h
    · cases h
    next hspaces =>
    rw [if_neg hspaces]
    split at h
    · cases h
    next hwords =>
    rw [if_neg hwords]
    split at h
    · cases h
    next hescapable =>
    rw [if_neg hescapable]
    split at h
    case h_9 =>
      obtain hnone | ⟨inner, rfl, hblank, hsome⟩ :=
        parseBoundaryName_none (Option.map_eq_none_iff.mp h)
      · simp only [hnone]
        exact .inl rfl
      · simp only [hsome]
        exact .inr (.inr ⟨inner, hblank, rfl⟩)
    case h_13 => exact .inl rfl
    all_goals cases h

/-! ### Brackets -/

/-- The member of a set that an escape stands for. -/
def Escape.member? : Escape → Option Member
  | .literal c byte => some (.literal c byte)
  | .named set negated => some (.named set negated)
  | .anchor _ => none

theorem parseMember_backslash (rest : List Char) :
    parseMember spaced ('\\' :: rest)
      = (parseEscape spaced rest).bind fun r => r.1.member?.map (·, r.2) := by
  rw [parseMember]
  cases parseEscape spaced rest with
  | none => rfl
  | some r =>
    obtain ⟨e, after⟩ := r
    cases e <;> rfl

theorem parseMember_none {cs : List Char} (h : parseMember spaced cs = none) :
    parseMember spaced (cs ++ closing) = none
      ∨ ∃ m, parseMember spaced (cs ++ closing) = some (m, ['$']) := by
  cases cs with
  | nil => exact .inr ⟨.literal ')' false, rfl⟩
  | cons c inner =>
    by_cases hc : c = '\\'
    · subst hc
      rw [parseMember_backslash] at h
      rw [List.cons_append, parseMember_backslash]
      cases hescape : parseEscape spaced inner with
      | none =>
        obtain hnone | ⟨e, he⟩ | ⟨rest, -, hboundary⟩ := parseEscape_none hescape
        · rw [hnone]
          exact .inl rfl
        · rw [he]
          cases hm : e.member? with
          | none => exact .inl (by simp [hm])
          | some m => exact .inr ⟨m, by simp [hm]⟩
        · rw [hboundary]
          exact .inl rfl
      | some r =>
        obtain ⟨left, hleft, -⟩ := closing_closing.parseEscape hescape
        rw [hescape] at h
        rw [hleft]
        simp only [Option.bind_some, Option.map_eq_none_iff] at h ⊢
        exact .inl h
    · unfold parseMember at h
      split at h
      · next h' => cases h'
      · next h' =>
        cases h'
        exact absurd rfl hc
      · cases h

/-- A range that is not read alone ends in what stands behind the text. -/
theorem parseRange_none {cs : List Char} (h : parseRange spaced cs = none) :
    parseRange spaced (cs ++ closing) = none
      ∨ ∃ set left, parseRange spaced (cs ++ closing) = some (set, left) ∧ Behind left := by
  have hline : skipBlank spaced ['$'] = ['$'] := by cases spaced <;> rfl
  cases hmember : parseMember spaced cs with
  | none =>
    obtain hnone | ⟨m, hm⟩ := parseMember_none hmember
    · rw [parseRange, hnone]
      exact .inl rfl
    · exact .inr ⟨_, _, parseRange_single hm hline (by decide), .inr (.inl rfl)⟩
  | some r =>
    obtain ⟨m, after⟩ := r
    obtain ⟨after', hmember', hafter⟩ := closing_closing.parseMember hmember
    have hskip := closing_closing.skipBlank_extends spaced hafter
    cases heq : skipBlank spaced after with
    | nil =>
      rw [heq] at hskip
      obtain hskip | ⟨-, hskip⟩ := hskip
      · exact .inr ⟨_, _, parseRange_single hmember' hskip (by decide), .inl rfl⟩
      · rw [parseRange, hmember']
        simp only [Option.bind_eq_bind, Option.bind_some, hskip]
        exact .inl trivial
    | cons c afterDash =>
      rw [heq] at hskip
      have hskip := hskip.cons
      by_cases hc : c = '-'
      · subst hc
        cases heq' : skipBlank spaced afterDash with
        | nil =>
          obtain hnext | hnext := skipBlank_closing heq'
          · rw [parseRange_between hmember' hskip hnext (by decide) (by decide)]
            cases hrange : rangeBetween? m (.literal ')' false) with
            | none => exact .inl (by simp [parseMember, hrange])
            | some set =>
              exact .inr ⟨set, ['$'], by simp [parseMember, hrange], .inr (.inl rfl)⟩
          · rw [parseRange, hmember']
            simp only [Option.bind_eq_bind, Option.bind_some, hskip, hnext]
            exact .inl trivial
        | cons d inner =>
          have hnext := closing_closing.skipBlank_cons heq'
          by_cases hd : d = ']' ∨ d = '-'
          · rw [parseRange_dash hmember heq heq' hd] at h
            cases h
          · rw [not_or] at hd
            rw [parseRange_between hmember heq heq' hd.1 hd.2] at h
            rw [parseRange_between hmember' hskip hnext hd.1 hd.2]
            cases hlast : parseMember spaced (d :: inner) with
            | none =>
              obtain hnone | ⟨last, hlast'⟩ := parseMember_none hlast
              · rw [List.cons_append] at hnone
                rw [hnone]
                exact .inl rfl
              · rw [List.cons_append] at hlast'
                rw [hlast']
                cases hrange : rangeBetween? m last with
                | none => exact .inl (by simp [hrange])
                | some set => exact .inr ⟨set, ['$'], by simp [hrange], .inr (.inl rfl)⟩
            | some r =>
              obtain ⟨left, hleft, -⟩ := closing_closing.parseMember hlast
              rw [List.cons_append] at hleft
              rw [hlast] at h
              rw [hleft]
              simp only [Option.bind_some, Option.map_eq_none_iff] at h ⊢
              exact .inl h
      · rw [parseRange_single hmember heq hc] at h
        cases h

theorem openingMembers_none {fuel more : Nat} {set : ClassExpr} {cs : List Char}
    (hfuel : cs.length < fuel) (h : openingMembers spaced fuel set cs = none) :
    openingMembers spaced more set (cs ++ closing) = none
      ∨ ∃ set', openingMembers spaced more set (cs ++ closing) = some (set', closing) := by
  induction fuel generalizing set cs more with
  | zero => exact absurd hfuel (Nat.not_lt_zero _)
  | succ fuel ih =>
    cases more with
    | zero => exact .inl rfl
    | succ more =>
      unfold openingMembers at h
      split at h
      · exact .inr ⟨set, rfl⟩
      · next inner =>
        rw [List.cons_append, openingMembers]
        have hlen := length_skipBlank_le spaced inner
        rw [List.length_cons] at hfuel
        obtain hskip | ⟨-, hskip⟩ := closing_closing.skipBlank spaced inner
        · rw [hskip]
          exact ih (by omega) h
        · rw [hskip]
          cases more <;> exact .inl rfl
      · next inner =>
        rw [List.cons_append, openingMembers]
        split at h
        · next hset =>
          rw [if_pos hset]
          split at h
          · next heq =>
            obtain hskip | hskip := skipBlank_closing heq
            · rw [hskip]
              exact .inr ⟨_, rfl⟩
            · rw [hskip]
              exact .inl rfl
          · cases h
        · cases h
      · cases h

/-- No bracketed set is closed behind the text. -/
theorem parseBrackets_behind {fuel : Nat} {waiting : Option (SetOperator × ClassExpr)}
    {set : ClassExpr} {left : List Char} (h : Behind left) :
    parseBrackets spaced fuel waiting set left = none := by
  have hnil : ∀ fuel set, parseBrackets spaced fuel waiting set [] = none := by
    rintro (_ | fuel) set <;> cases spaced <;> rfl
  have hline : ∀ fuel set, parseBrackets spaced fuel waiting set ['$'] = none := by
    rintro (_ | fuel) set
    · rfl
    · cases spaced <;> rfl
  obtain rfl | rfl | rfl := h
  · cases fuel with
    | zero => rfl
    | succ fuel =>
      have hstep : parseBrackets spaced (fuel + 1) waiting set closing
          = parseBrackets spaced fuel waiting (.union set (.range ')' ')' false)) ['$'] := by
        cases spaced <;> rfl
      rw [hstep, hline]
  · exact hline fuel set
  · exact hnil fuel set

theorem Piece.goOn_behind {fuel : Nat} {waiting : Option (SetOperator × ClassExpr)}
    {set : ClassExpr} {p : Piece} {left : List Char} (hp : p ≠ .close) (h : Behind left) :
    goOn spaced fuel waiting set (p, left) = none := by
  cases p with
  | close => exact absurd rfl hp
  | set members => exact parseBrackets_behind h
  | nested negated opening =>
    rw [goOn, parseBrackets_behind h]
    rfl
  | operator o => exact parseBrackets_behind h

theorem parseOpened_none {cs : List Char} (h : parseOpened spaced cs = none) :
    parseOpened spaced (cs ++ closing) = none
      ∨ ∃ r, parseOpened spaced (cs ++ closing) = some (r, closing) := by
  unfold parseOpened at h ⊢
  rcases hnegation : parseNegation spaced cs with ⟨negated, opened⟩
  rcases hnegation' : parseNegation spaced (cs ++ closing) with ⟨negated', longer⟩
  obtain ⟨-, hlonger⟩ := closing_closing.parseNegation spaced (.append cs)
  rw [hnegation, hnegation'] at hlonger
  rw [hnegation] at h
  obtain rfl | ⟨-, rfl⟩ := hlonger
  · obtain hnone | ⟨set, hset⟩ :=
      openingMembers_none (Nat.lt_succ_self _) (Option.map_eq_none_iff.mp h)
    · exact .inl (congrArg (Option.map _) hnone)
    · exact .inr ⟨_, congrArg (Option.map _) hset⟩
  · exact .inl rfl

/-- What is left behind a piece that is not read alone closes no brackets. -/
theorem piece?_none {cs : List Char} (h : piece? spaced cs = none) :
    piece? spaced (cs ++ closing) = none
      ∨ ∃ p left, p ≠ .close ∧ Behind left ∧ piece? spaced (cs ++ closing) = some (p, left) := by
  rw [piece?] at h ⊢
  cases heq : skipBlank spaced cs with
  | nil =>
    obtain hskip | hskip := skipBlank_closing heq
    · rw [hskip]
      exact .inr ⟨.set (.range ')' ')' false), ['$'], by simp, .inr (.inl rfl),
        by cases spaced <;> rfl⟩
    · rw [hskip]
      exact .inl rfl
  | cons first inner =>
    rw [heq] at h
    rw [closing_closing.skipBlank_cons heq]
    unfold pieceOf? at h
    split at h
    · next h' => cases h'
    · next h' =>
      cases h'
      rw [pieceOf?, closing_closing.posixClass?]
      split at h
      · cases h
      · next hposix =>
        rw [hposix]
        obtain hnone | ⟨r, hopened⟩ := parseOpened_none (Option.map_eq_none_iff.mp h)
        · exact .inl (congrArg (Option.map _) hnone)
        · exact .inr ⟨.nested r.1 r.2, _, by simp, .inl rfl, congrArg (Option.map _) hopened⟩
    iterate 4
      · cases h
    · next hnil hopen hclose hand hdash htilde =>
      rw [← List.cons_append,
        closing_closing.pieceOf?_member hnil hopen hclose hand hdash htilde]
      obtain hnone | ⟨set, left, hset, hleft⟩ := parseRange_none (Option.map_eq_none_iff.mp h)
      · exact .inl (congrArg (Option.map _) hnone)
      · exact .inr ⟨.set set, left, by simp, hleft, congrArg (Option.map _) hset⟩

theorem parseBrackets_none {fuel more : Nat} {waiting : Option (SetOperator × ClassExpr)}
    {set : ClassExpr} {cs : List Char} (hmore : fuel ≤ more) (hfuel : cs.length < fuel)
    (h : parseBrackets spaced fuel waiting set cs = none) :
    parseBrackets spaced more waiting set (cs ++ closing) = none := by
  induction fuel generalizing waiting set cs more with
  | zero => exact absurd hfuel (Nat.not_lt_zero _)
  | succ fuel ih =>
    obtain ⟨more, rfl⟩ : ∃ m, more = m + 1 := ⟨more - 1, by omega⟩
    have hmore : fuel ≤ more := by omega
    rw [parseBrackets_succ] at h ⊢
    cases hp : piece? spaced cs with
    | none =>
      obtain hnone | ⟨p, left, hne, hleft, hsome⟩ := piece?_none hp
      · rw [hnone]
        rfl
      · rw [hsome]
        exact Piece.goOn_behind hne hleft
    | some r =>
      obtain ⟨p, after⟩ := r
      have hlt := length_piece?_lt hp
      rw [hp, Option.bind_some] at h
      have hne : p ≠ .close := by
        rintro rfl
        cases h
      obtain ⟨after', hp', rfl | ⟨-, rfl⟩, -⟩ := closing_closing.piece? hp
      case inr =>
        rw [hp']
        exact Piece.goOn_behind hne (.inr (.inr rfl))
      rw [hp', Option.bind_some]
      cases p with
      | close => exact absurd rfl hne
      | set members => exact ih hmore (by omega) h
      | nested negated opening =>
        rw [Piece.goOn] at h ⊢
        cases hbody : parseBrackets spaced fuel none opening after with
        | none =>
          rw [ih hmore (by omega) hbody]
          rfl
        | some r =>
          obtain ⟨body, afterBody⟩ := r
          have hlt' := length_parseBrackets_lt hbody
          rw [closing_closing.parseBrackets hmore hbody]
          rw [hbody] at h
          exact ih hmore (by omega) h
      | operator o => exact ih hmore (by omega) h

theorem parseClass_none {cs : List Char} (h : parseClass spaced cs = none) :
    parseClass spaced (cs ++ closing) = none := by
  rw [parseClass_eq] at h ⊢
  cases hopened : parseOpened spaced cs with
  | none =>
    obtain hnone | ⟨r, hr⟩ := parseOpened_none hopened
    · rw [hnone]
      rfl
    · rw [hr, Option.bind_some, parseBrackets_behind (.inl rfl)]
      rfl
  | some r =>
    obtain ⟨⟨negated, opening⟩, after⟩ := r
    rw [hopened, Option.bind_some] at h
    rw [closing_closing.parseOpened hopened, Option.bind_some]
    cases hbody : parseBrackets spaced (after.length + 1) none opening after with
    | none =>
      rw [parseBrackets_none (by simp) (Nat.lt_succ_self _) hbody]
      rfl
    | some r =>
      rw [hbody] at h
      cases h

/-! ### Groups and repetitions -/

/-- Flags that are not read alone end at the parenthesis behind them. -/
theorem parseFlags_none {negating : Bool} {change : FlagChange} {cs : List Char}
    (h : parseFlags negating change cs = none) :
    parseFlags negating change (cs ++ closing) = none
      ∨ ∃ change', parseFlags negating change (cs ++ closing)
          = some ((change', false), ['$']) := by
  induction cs generalizing negating change with
  | nil =>
    right
    refine ⟨change, ?_⟩
    unfold parseFlags
    rfl
  | cons c cs ih =>
    rw [List.cons_append]
    unfold parseFlags at h ⊢
    split at h
    · cases h
    next hcolon =>
    rw [if_neg hcolon]
    split at h
    · cases h
    next hclose =>
    rw [if_neg hclose]
    split at h
    · next hdash =>
      rw [if_pos hdash]
      cases negating with
      | true => exact .inl rfl
      | false =>
        cases cs with
        | nil => exact .inl rfl
        | cons d cs =>
          by_cases hd : d = ':' ∨ d = ')'
          · obtain rfl | rfl := hd <;> exact .inl rfl
          · rw [not_or] at hd
            rw [List.cons_append] at ih ⊢
            simp only [List.cons.injEq, hd.1, hd.2, false_and, imp_self, implies_true] at h ⊢
            exact ih h
    · next hdash =>
      rw [if_neg hdash]
      split at h
      · exact .inl rfl
      · split at h
        · next hagain =>
          rw [if_pos hagain]
          exact .inl rfl
        · next hnew =>
          rw [if_neg hnew]
          exact ih h

theorem parseName_none {name cs : List Char} (h : parseName name cs = none) :
    parseName name (cs ++ closing) = none := by
  induction cs generalizing name with
  | nil =>
    show parseName name [')', '$'] = none
    have hparen : isNameChar name.isEmpty ')' = false := by
      cases name.isEmpty <;> decide +kernel
    rw [parseName, if_neg (by decide), hparen]
    rfl
  | cons c cs ih =>
    rw [List.cons_append]
    unfold parseName at h ⊢
    split at h
    · next hclose =>
      rw [if_pos hclose]
      split at h
      · next hempty => rw [if_pos hempty]
      · cases h
    · next hclose =>
      rw [if_neg hclose]
      split at h
      · next hchar =>
        rw [if_pos hchar]
        exact ih h
      · next hchar => rw [if_neg hchar]

theorem openingFlags_none {cs : List Char} (h : openingFlags cs = none) :
    openingFlags (cs ++ closing) = none
      ∨ ∃ change, openingFlags (cs ++ closing) = some (.flags change, ['$']) := by
  unfold openingFlags at h ⊢
  cases hflags : parseFlags false [] cs with
  | none =>
    obtain hnone | ⟨change, hchange⟩ := parseFlags_none hflags
    · rw [hnone]
      exact .inl rfl
    · rw [hchange]
      cases change with
      | nil => exact .inl rfl
      | cons first change => exact .inr ⟨first :: change, rfl⟩
  | some r =>
    obtain ⟨⟨change, grouping⟩, after⟩ := r
    rw [parseFlags_append closing hflags]
    rw [hflags] at h
    left
    simp only [Option.bind_eq_bind, Option.bind_some] at h ⊢
    split at h
    · cases h
    next hgrouping =>
    rw [if_neg hgrouping]
    split at h
    · next hempty => rw [if_pos hempty]
    · cases h

theorem parseOpening_none {cs : List Char} (h : parseOpening spaced cs = none) :
    parseOpening spaced (cs ++ closing) = none
      ∨ ∃ change, parseOpening spaced (cs ++ closing) = some (.flags change, ['$']) := by
  unfold parseOpening at h
  split at h
  iterate 4
    · next heq =>
      rw [parseOpening, closing_closing.skipBlank_cons heq]
      exact .inl rfl
  · next heq =>
    rw [parseOpening, closing_closing.skipBlank_cons heq]
    simp only [List.cons_append, parseName_none (Option.map_eq_none_iff.mp h)]
    exact .inl rfl
  · next inner hequal hexclaim heq =>
    have hname := parseName_none (Option.map_eq_none_iff.mp h)
    rw [parseOpening, closing_closing.skipBlank_cons heq]
    left
    cases inner with
    | nil =>
      show (parseName [] closing).map _ = none
      rw [show parseName [] closing = none from hname]
      rfl
    | cons d inner =>
      have hd : d ≠ '=' ∧ d ≠ '!' :=
        ⟨fun heq => hequal inner (by rw [heq]), fun heq => hexclaim inner (by rw [heq])⟩
      rw [List.cons_append] at hname
      simp only [List.cons.injEq, hd.1, hd.2, false_and, imp_self, implies_true,
        List.cons_append, hname, Option.map_none]
  · next inner hlook hnot hbehind hnotBehind hold hnamed heq =>
    have hflags : openingFlags inner = none := h
    have hrest : ∀ c : Char, c ≠ ')' → (∀ rest, inner ≠ c :: rest) →
        ∀ rest, inner ++ closing ≠ c :: rest := by
      intro c hparen hc rest h'
      cases inner with
      | nil =>
        cases h'
        exact hparen rfl
      | cons d inner =>
        cases h'
        exact hc inner rfl
    have hflags' : parseOpening spaced (cs ++ closing) = openingFlags (inner ++ closing) := by
      refine parseOpening_flags (closing_closing.skipBlank_cons heq) ?_ ?_ ?_ ?_
      · exact hrest '=' (by decide) fun rest h' => hlook rest h'
      · exact hrest '!' (by decide) fun rest h' => hnot rest h'
      · intro rest h'
        cases inner with
        | nil => cases h'
        | cons d inner =>
          obtain rfl := (List.cons.inj h').1
          obtain ⟨inner', rfl⟩ := closing_closing.second (by decide) (by decide) h'
          exact hold inner' rfl
      · exact hrest '<' (by decide) fun rest h' => hnamed rest h'
    rw [hflags']
    exact openingFlags_none hflags
  · cases h

theorem parseLimits_none {cs : List Char} (h : parseLimits spaced cs = none) :
    parseLimits spaced (cs ++ closing) = none := by
  have hstart := closing_closing.skipBlank spaced cs
  unfold parseLimits at h
  split at h
  · next least after hleast =>
    obtain ⟨after', hleast', hafter⟩ := closing_closing.parseCount hstart hleast
    rw [parseLimits, hleast', hafter.cons]
    split at h
    · cases h
    · next hbrace =>
      have hmost := parseCount_none (closing_closing.skipBlank spaced after)
        (Option.map_eq_none_iff.mp h)
      simp only
      split
      · next heq =>
        -- no brace comes up behind the text
        obtain hskip | ⟨-, hskip⟩ := closing_closing.skipBlank spaced after
        · rw [heq] at hskip
          cases hafter' : skipBlank spaced after with
          | nil =>
            rw [hafter'] at hskip
            cases hskip
          | cons c inner =>
            rw [hafter'] at hskip
            cases hskip
            exact absurd hafter' (hbrace inner)
        · rw [heq] at hskip
          cases hskip
      · rw [hmost]
        rfl
  · cases h
  · next hnone => rw [parseLimits, parseCount_none hstart hnone]

theorem parseCounts_none {cs : List Char} (h : parseCounts spaced cs = none) :
    parseCounts spaced (cs ++ closing) = none := by
  unfold parseCounts at h
  split at h
  · next counts after hlimits =>
    obtain ⟨after', hlimits', hafter⟩ := closing_closing.parseLimits hlimits
    rw [parseCounts, hlimits', hafter.cons]
    simp only
    split at h
    · cases h
    · next hordered => rw [if_neg hordered]
  · next hbrace =>
    cases hlimits : parseLimits spaced cs with
    | none => rw [parseCounts, parseLimits_none hlimits]
    | some r =>
      obtain ⟨counts, after⟩ := r
      obtain ⟨after', hlimits', hafter⟩ := closing_closing.parseLimits hlimits
      rw [parseCounts, hlimits']
      split
      · next heq =>
        cases heq
        obtain hafter | ⟨-, hafter⟩ := hafter
        · cases after with
          | nil => cases hafter
          | cons c after =>
            cases hafter
            exact absurd hlimits (hbrace counts after)
        · cases hafter
      · rfl

end HttpContract.Pattern
