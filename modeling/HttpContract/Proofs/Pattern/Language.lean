import HttpContract.Library.Simple
import HttpContract.Proofs.Pattern.Prefix
import HttpContract.Proofs.Pattern.Whole

/-!
# Pattern — conditions accept the language of their source

The pattern of a condition stands in a group between the ends of the text. What the condition
accepts is the language of its source if the source is a pattern by itself; the one other source
that a condition can have closes the group early (`PatternRule.ofSource?_whole_iff`).
-/

namespace HttpContract.Pattern

variable {text : List Char}

/-! ## The matcher goes nowhere else -/

theorem Rounds.append {R : Nat → Nat → Prop} {m n i j k : Nat} (hm : Rounds R m i j)
    (hn : Rounds R n j k) : Rounds R (m + n) i k := by
  induction m generalizing i with
  | zero =>
    obtain rfl : i = j := hm
    rwa [Nat.zero_add]
  | succ m ih =>
    obtain ⟨l, hfirst, hrest⟩ := hm
    rw [Nat.succ_add]
    exact ⟨l, hfirst, ih hrest⟩

/-- A computation of positions that goes only where a relation between them leads. -/
def Comes (f : Positions → Positions) (R : Nat → Nat → Prop) (len : Nat) : Prop :=
  ∀ s j, s.length = len → Reaches (f s) j → ∃ i, R i j ∧ Reaches s i

variable {f : Positions → Positions} {R : Nat → Nat → Prop} {len : Nat}

theorem Comes.times (h : Comes f R len) (hf : Follows f R len) (n : Nat) :
    Comes (times f n) (Rounds R n) len := by
  intro s j hs hj
  induction n generalizing s with
  | zero => exact ⟨j, rfl, hj⟩
  | succ n ih =>
    rw [Pattern.times] at hj
    split at hj
    · obtain ⟨l, hrest, hl⟩ := ih (f s) (hf.length s hs) hj
      obtain ⟨i, hfirst, hi⟩ := h s l hs hl
      exact ⟨i, ⟨l, hfirst, hrest⟩, hi⟩
    · next hnone => exact absurd hj.any hnone

theorem Comes.atMost (h : Comes f R len) (hf : Follows f R len) {n j : Nat} {s : Positions}
    (hs : s.length = len) (hj : Reaches (atMost f n s) j) :
    ∃ r i, r ≤ n ∧ Rounds R r i j ∧ Reaches s i := by
  induction n generalizing s with
  | zero => exact ⟨0, j, Nat.le_refl _, rfl, hj⟩
  | succ n ih =>
    have hlen := hf.length s hs
    simp only [Pattern.atMost] at hj
    split at hj
    · exact ⟨0, j, Nat.zero_le _, rfl, hj⟩
    · obtain ⟨r, l, hr, hrest, hl⟩ := ih (length_join hs hlen) hj
      rw [reaches_join (hs.trans hlen.symm)] at hl
      obtain hl | hl := hl
      · exact ⟨r, l, Nat.le_succ_of_le hr, hrest, hl⟩
      · obtain ⟨i, hfirst, hi⟩ := h s l hs hl
        exact ⟨r + 1, i, Nat.succ_le_succ hr, ⟨l, hfirst, hrest⟩, hi⟩

/-- The matcher reaches no position but those that the pattern can go to. -/
theorem comes_advance (p : Pattern) :
    Comes (p.advance text) (Spans text p) (text.length + 1) := by
  induction p with
  | empty => exact fun s j _ hj => ⟨j, rfl, hj⟩
  | oneOf set =>
    intro s j hs hj
    cases j with
    | zero => cases hj
    | succ i =>
      rw [Reaches, advance, step, List.getElem?_cons_succ, List.getElem?_zipWith_eq_some] at hj
      obtain ⟨here, c, hhere, hc, hboth⟩ := hj
      rw [Bool.and_eq_true] at hboth
      obtain ⟨rfl, hset⟩ := hboth
      exact ⟨i, ⟨rfl, c, hc, hset⟩, hhere⟩
  | assert a =>
    intro s j hs hj
    rw [Reaches, advance, List.getElem?_zipWith_eq_some] at hj
    obtain ⟨here, context, hhere, hcontext, hboth⟩ := hj
    rw [Bool.and_eq_true] at hboth
    obtain ⟨rfl, ha⟩ := hboth
    exact ⟨j, ⟨rfl, context, hcontext, ha⟩, hhere⟩
  | seq p q ihp ihq =>
    intro s k hs hk
    obtain ⟨j, hq, hj⟩ := ihq _ k ((follows_advance p).length s hs) hk
    obtain ⟨i, hp, hi⟩ := ihp s j hs hj
    exact ⟨i, ⟨j, hp, hq⟩, hi⟩
  | alt p q ihp ihq =>
    intro s j hs hj
    have hlen := ((follows_advance p).length s hs).trans ((follows_advance q).length s hs).symm
    rw [advance, reaches_join hlen] at hj
    obtain hj | hj := hj
    · obtain ⟨i, hp, hi⟩ := ihp s j hs hj
      exact ⟨i, .inl hp, hi⟩
    · obtain ⟨i, hq, hi⟩ := ihq s j hs hj
      exact ⟨i, .inr hq, hi⟩
  | «repeat» p least most ih =>
    intro s k hs hk
    have hp : Follows (p.advance text) (Spans text p) (text.length + 1) := follows_advance p
    have hrequired := (hp.times least).length s hs
    obtain ⟨extra, j, hextra, hmore, hj⟩ : ∃ extra j, (∀ m ∈ most, extra ≤ m - least) ∧
        Rounds (Spans text p) extra j k ∧ Reaches (Pattern.times (p.advance text) least s) j := by
      cases most with
      | none =>
        obtain ⟨extra, j, -, hmore, hj⟩ := ih.atMost hp hrequired hk
        exact ⟨extra, j, by simp, hmore, hj⟩
      | some m =>
        obtain ⟨extra, j, hextra, hmore, hj⟩ := ih.atMost hp hrequired hk
        exact ⟨extra, j, by simpa using hextra, hmore, hj⟩
    obtain ⟨i, hleast, hi⟩ := ih.times hp least s j hs hj
    exact ⟨i, ⟨extra, hextra, hleast.append hmore⟩, hi⟩

/-- A pattern matches a text if and only if it spans a stretch of it. -/
theorem isMatch_iff {p : Pattern} :
    p.isMatch text = true ↔ ∃ i j, i ≤ text.length ∧ Spans text p i j := by
  constructor
  · intro h
    obtain ⟨reached, hmem, hreached⟩ := List.any_eq_true.mp h
    obtain ⟨j, hj⟩ := List.mem_iff_getElem?.mp hmem
    rw [show reached = true from hreached] at hj
    obtain ⟨i, hspan, hi⟩ := comes_advance p _ j (by simp) hj
    have hlt := hi.lt
    rw [List.length_replicate] at hlt
    exact ⟨i, j, Nat.le_of_lt_succ hlt, hspan⟩
  · rintro ⟨i, j, hi, hspan⟩
    exact hspan.isMatch hi

theorem spans_textStart {i j : Nat} :
    Spans text (.assert .textStart) i j ↔ i = 0 ∧ j = 0 := by
  constructor
  · rintro ⟨rfl, ⟨before, after⟩, hcontext, hstart⟩
    rw [neighbours, List.getElem?_zip_eq_some] at hcontext
    obtain rfl : before = none := eq_of_beq hstart
    cases i with
    | zero => exact ⟨rfl, rfl⟩
    | succ i => simp at hcontext
  · rintro ⟨rfl, rfl⟩
    refine ⟨rfl, (none, (text ++ []).head?), ?_, rfl⟩
    cases text <;> rfl

theorem spans_textEnd {i j : Nat} :
    Spans text (.assert .textEnd) i j ↔ i = text.length ∧ j = text.length := by
  constructor
  · rintro ⟨rfl, ⟨before, after⟩, hcontext, hend⟩
    rw [neighbours, List.getElem?_zip_eq_some] at hcontext
    obtain rfl : after = none := eq_of_beq hend
    have hlast := hcontext.2
    by_cases hi : i < text.length
    · simp [List.getElem?_append, hi] at hlast
    · have hlt := (List.getElem?_eq_some_iff.mp hlast).1
      simp only [List.length_append, List.length_map, List.length_singleton] at hlt
      have : i = text.length := by omega
      exact ⟨this, this⟩
  · rintro ⟨rfl, rfl⟩
    obtain ⟨last, hlast⟩ : ∃ last, (none :: text.map some)[text.length]? = some last :=
      ⟨_, List.getElem?_eq_getElem (by simp)⟩
    refine ⟨rfl, (last, none), ?_, rfl⟩
    rw [neighbours, List.getElem?_zip_eq_some]
    exact ⟨hlast, by simp⟩

/-- Between the ends of the text, a pattern matches only the text as a whole. -/
theorem isMatch_between_ends {p : Pattern} :
    (seqs [.assert .textStart, p, .assert .textEnd]).isMatch text = true
      ↔ Spans text p 0 text.length := by
  rw [isMatch_iff]
  constructor
  · rintro ⟨i, k, -, hspan⟩
    obtain ⟨i', hstart, j, hp, hend⟩ := hspan
    obtain ⟨-, rfl⟩ := spans_textStart.mp hstart
    obtain ⟨rfl, -⟩ := spans_textEnd.mp hend
    exact hp
  · intro hp
    exact ⟨0, text.length, Nat.zero_le _, 0, spans_textStart.mpr ⟨rfl, rfl⟩, text.length, hp,
      spans_textEnd.mpr ⟨rfl, rfl⟩⟩

/-! ## Groups that the source does not close -/

/-- Reading ends before a closing parenthesis. -/
def EndsGroup (run : Option ((Expr × List (List Char)) × List Char)) : Prop :=
  ∃ r rest, run = some (r, ')' :: rest)

theorem not_endsGroup_none : ¬ EndsGroup none := by
  rintro ⟨r, rest, h⟩
  cases h

/-- Behind the parenthesis of the group there is none that another group could end at. -/
theorem parseBranches_line {fuel : Nat} {spaced : Bool} {names : List (List Char)}
    {branches items : List Expr} :
    ¬ EndsGroup (parseBranches fuel spaced names branches items ['$']) := by
  rintro ⟨r, rest, h⟩
  cases fuel with
  | zero => cases h
  | succ fuel => cases fuel <;> cases spaced <;> cases h

theorem parseBranches_nil {fuel : Nat} {spaced : Bool} {names : List (List Char)}
    {branches items : List Expr} :
    parseBranches (fuel + 1) spaced names branches items [] ≠ none := by
  cases spaced <;> intro h <;> cases h

/-- A brace with blanks behind it up to the end opens no counts. -/
theorem parseBranches_brace {fuel : Nat} {spaced : Bool} {names : List (List Char)}
    {branches items : List Expr} {a : Anchor} {inner : List Char}
    (h : skipBlank spaced inner = []) :
    ¬ EndsGroup (parseBranches fuel spaced names branches (.anchor a :: items)
      ('\x7b' :: (inner ++ closing))) := by
  have hcounts : parseCounts spaced (inner ++ closing) = none := by
    refine parseCounts_none ?_
    rw [parseCounts, parseLimits, h]
    rfl
  cases fuel with
  | zero => exact not_endsGroup_none
  | succ fuel =>
    have hskip : skipBlank spaced ('\x7b' :: (inner ++ closing))
        = '\x7b' :: (inner ++ closing) := by
      cases spaced <;> rfl
    rw [parseBranches, hskip]
    simp only [repeatable?, hcounts, Option.bind_eq_bind, Option.bind_some, Option.bind_none]
    exact not_endsGroup_none

/-- What stands next and is not read alone takes the end of the group with it. -/
theorem nextAt?_none {spaced : Bool} {c : Char} {cs : List Char}
    (h : nextAt? spaced c cs = none) (fuel : Nat) (names : List (List Char))
    (branches items : List Expr) :
    ¬ EndsGroup ((nextAt? spaced c (cs ++ closing)).bind
      (Next.goOn fuel spaced names branches items)) := by
  unfold nextAt? at h
  split at h
  case h_2 =>
    rw [nextAt?]
    obtain hnone | ⟨change, hchange⟩ := parseOpening_none (Option.map_eq_none_iff.mp h)
    · rw [hnone]
      exact not_endsGroup_none
    · rw [hchange]
      exact parseBranches_line
  case h_4 =>
    rw [nextAt?, parseClass_none (Option.map_eq_none_iff.mp h)]
    exact not_endsGroup_none
  case h_8 =>
    rw [nextAt?, parseCounts_none (Option.map_eq_none_iff.mp h)]
    exact not_endsGroup_none
  case h_9 =>
    rw [nextAt?]
    obtain hnone | ⟨e, he⟩ | ⟨inner, hblank, he⟩ :=
      parseEscape_none (Option.map_eq_none_iff.mp h)
    · rw [hnone]
      exact not_endsGroup_none
    · rw [he]
      exact parseBranches_line
    · rw [he]
      exact parseBranches_brace hblank
  all_goals cases h

/-- What is no pattern alone, as far as some fuel goes, does not end the group that it is put in. -/
def StaysOpen (slack fuel : Nat) : Prop :=
  ∀ {spaced : Bool} {names : List (List Char)} {branches items : List Expr}
    {cs longer : List Char}, cs.length < fuel → Extends closing cs longer →
    parseBranches fuel spaced names branches items cs = none →
    ¬ EndsGroup (parseBranches (fuel + slack) spaced names branches items longer)

variable {fuel slack : Nat} {spaced : Bool} {names : List (List Char)}
  {branches items : List Expr} {cs longer : List Char}

/-- The body of a group ends at the closing parenthesis behind it, or behind the text: then no
parenthesis is left for the group around it. -/
theorem StaysOpen.group (ih : StaysOpen slack fuel) (hslack : 1 ≤ slack) {inner : Bool}
    {change : FlagChange} (hfuel : cs.length < fuel) (hcs : Extends closing cs longer)
    (h : parseGroup fuel spaced inner names branches items change cs = none) :
    ¬ EndsGroup (parseGroup (fuel + slack) spaced inner names branches items change longer) := by
  rw [parseGroup] at h ⊢
  cases hbody : parseBranches fuel inner names [] [] cs with
  | none =>
    rintro ⟨r, rest, hrun⟩
    obtain ⟨group, hbody', hrun⟩ := Option.bind_eq_some_iff.mp hrun
    obtain ⟨body, names', after, rfl, -⟩ := behindGroup_eq_some hrun
    exact ih hfuel hcs hbody ⟨_, _, hbody'⟩
  | some r =>
    obtain ⟨⟨body, names'⟩, rest⟩ := r
    have hstops := parseBranches_stops hbody
    have houtcome : Outcome closing [] slack rest body names'
        (parseBranches (fuel + slack) inner names [] [] longer) :=
      have hrows : List.Forall₂ (Anchored []) [] [] := .nil
      closing_closing.parseBranches hrows (.inl rfl) hcs hbody
    rw [hbody] at h
    obtain rfl | ⟨behind, rfl⟩ := hstops.head
    · obtain ⟨rows, rows', -, -, ⟨rest', hrun, hnil, -⟩ |
        ⟨-, left, spaced', row', more', hleft, -, hrun⟩⟩ := houtcome
      · obtain rfl := hnil rfl
        rw [hrun]
        exact not_endsGroup_none
      · rw [hrun, closing, Ending.plain.parseBranches (by omega)]
        exact parseBranches_line
    · have hle := hstops.length
      rw [List.length_cons] at hle
      rw [houtcome.nested]
      exact ih (by omega) (.append behind) h

theorem StaysOpen.goOn (ih : StaysOpen slack fuel) (hslack : 1 ≤ slack) {next : Next}
    (hfuel : next ≠ .stop → cs.length < fuel) (hcs : Extends closing cs longer)
    (h : Next.goOn fuel spaced names branches items (next, cs) = none) :
    ¬ EndsGroup (Next.goOn (fuel + slack) spaced names branches items (next, longer)) := by
  cases next with
  | stop => cases h
  | bar => exact ih (hfuel (by simp)) hcs h
  | opening o =>
    have hlen : cs.length < fuel := hfuel (by simp)
    cases o with
    | flags change => exact ih hlen hcs h
    | plain change => exact ih.group hslack hlen hcs h
    | named name =>
      rw [Next.goOn] at h ⊢
      split at h
      · next hagain =>
        rw [if_pos hagain]
        exact not_endsGroup_none
      · next hnew =>
        rw [if_neg hnew]
        exact ih.group hslack hlen hcs h
  | item e => exact ih (hfuel (by simp)) hcs h
  | counts least most =>
    rw [Next.goOn] at h ⊢
    cases hbody : repeatable? items with
    | none => exact not_endsGroup_none
    | some r =>
      rw [hbody] at h
      exact ih (hfuel (by simp)) hcs h

/-- What is no pattern alone does not reach the end of the group that it is put in. -/
theorem parseBranches_none (hslack : 1 ≤ slack) (hfuel : cs.length < fuel)
    (hcs : Extends closing cs longer)
    (h : parseBranches fuel spaced names branches items cs = none) :
    ¬ EndsGroup (parseBranches (fuel + slack) spaced names branches items longer) := by
  induction fuel generalizing spaced names branches items cs longer with
  | zero => exact absurd hfuel (Nat.not_lt_zero _)
  | succ fuel ih =>
    obtain rfl | ⟨rfl, -⟩ := hcs
    case inr => exact absurd h parseBranches_nil
    rw [Nat.add_right_comm, parseBranches_succ]
    rw [parseBranches_succ] at h
    cases heq : skipBlank spaced cs with
    | nil =>
      rw [next?_nil heq] at h
      cases h
    | cons c rest =>
      have hlt := length_lt_of_skipBlank heq
      rw [next?_cons heq] at h
      rw [next?_cons (closing_closing.skipBlank_cons heq)]
      cases hnext : nextAt? spaced c rest with
      | none => exact nextAt?_none hnext _ _ _ _
      | some r =>
        obtain ⟨next, after⟩ := r
        obtain ⟨after', hnext', hafter⟩ := closing_closing.nextAt? hnext
        rw [hnext, Option.bind_some] at h
        rw [hnext', Option.bind_some]
        refine StaysOpen.goOn ih hslack (fun hne => ?_) hafter h
        have hle := length_nextAt?_le hne hnext
        omega

/-- Reading a text by itself ends at a closing parenthesis that nothing in the text opens. -/
def ClosesEarly (cs : List Char) : Prop :=
  EndsGroup (parseBranches (cs.length + 1) false [] [] [] cs)

theorem ClosesEarly.parse {cs : List Char} (h : ClosesEarly cs) : Expr.parse? cs = none := by
  obtain ⟨r, rest, h⟩ := h
  rw [Expr.parse?, h]

theorem depth_of_parse {cs : List Char} {e : Expr} (h : Expr.parse? cs = some e) :
    e.depth ≤ Expr.depthLimit := by
  unfold Expr.parse? at h
  split at h
  · split at h
    · next hlimit =>
      cases h
      exact hlimit
    · cases h
  · cases h

/-- What is a pattern in a group between anchors is one alone, or it closes the group early. -/
theorem parse_of_group {cs : List Char} {e' : Expr}
    (h : Expr.parse? ('^' :: '(' :: '?' :: ':' :: (cs ++ closing)) = some e') :
    ClosesEarly cs ∨ ∃ e, Expr.parse? cs = some e ∧
      e' = .concat [.anchor .startLine, .group [] e, .anchor .endLine] := by
  cases hread : parseBranches (cs.length + 1) false [] [] [] cs with
  | none =>
    obtain ⟨names, hwhole⟩ := parseBranches_of_parse h
    have hopen := parseBranches_none (by decide : 1 ≤ 4) (Nat.lt_succ_self _) (.append cs) hread
    rw [show ('^' :: '(' :: '?' :: ':' :: (cs ++ closing)).length + 1
      = cs.length + 2 + 5 by simp [closing], parseBranches_group] at hwhole
    obtain ⟨group, hgroup, hwhole⟩ := Option.bind_eq_some_iff.mp hwhole
    obtain ⟨body, names', rest, rfl, -⟩ := behindGroup_eq_some hwhole
    exact absurd ⟨_, _, hgroup⟩ hopen
  | some r =>
    obtain ⟨⟨e, names⟩, rest⟩ := r
    obtain rfl | ⟨behind, rfl⟩ := (parseBranches_stops hread).head
    · obtain ⟨rows, row, more, rfl, hrows, heq⟩ := parse_anchored .plain .plain hread h
      rw [List.nil_append, eq_of_anchored hrows] at heq
      have hdepth := depth_of_parse h
      rw [heq] at hdepth
      simp only [Expr.depth, Expr.depths] at hdepth
      refine .inr ⟨ofRows rows, ?_, heq⟩
      rw [Expr.parse?, hread]
      exact if_pos (by omega)
    · exact .inl ⟨_, _, hread⟩

/-- The meaning of a pattern between the ends of the text. -/
theorem lower_between_ends {e : Expr} {p : Pattern} {flags : Flags}
    (h : (Expr.concat [.anchor .startLine, .group [] e, .anchor .endLine]).lower {}
      = some (p, flags)) :
    ∃ q flags', e.lower {} = some (q, flags') ∧
      p = seqs [.assert .textStart, q, .assert .textEnd] := by
  have hflags : ({} : Flags).change [] = {} := rfl
  cases hlower : e.lower {} with
  | none => simp [Expr.lower, Expr.lowerAll, hflags, hlower] at h
  | some r =>
    obtain ⟨q, flags'⟩ := r
    refine ⟨q, flags', rfl, ?_⟩
    simp [Expr.lower, Expr.lowerAll, hflags, hlower, Anchor.assertion] at h
    exact h.1.symm

end HttpContract.Pattern

namespace HttpContract.Constraint

/-- A condition asks for the language of its source: the source is a pattern, and a value is
accepted if it has a text form and the pattern goes from the start of that to its end. -/
def PatternRule.MatchesWhole (r : PatternRule) : Prop :=
  ∃ p, Pattern.parse? r.source = some p ∧ ∀ v, (Matcher.regex r).accepts v = true
    ↔ ∃ s, v.stringForm = some s ∧ Pattern.Spans s.toList p 0 s.toList.length

/-- A condition with a pattern asks for the language of its source if and only if the source does
not close the group that it is put in. -/
theorem PatternRule.ofSource?_whole_iff [Library] {source : String} {r : PatternRule}
    (h : PatternRule.ofSource? source = some r) :
    r.MatchesWhole ↔ ¬ Pattern.ClosesEarly source.toList := by
  obtain ⟨whole, hcompile, rfl⟩ := Option.map_eq_some_iff.mp h
  have htext : ("^(?:" ++ source ++ ")$").toList
      = '^' :: '(' :: '?' :: ':' :: (source.toList ++ Pattern.closing) := by
    simp [Pattern.closing]
  constructor
  · rintro ⟨p, hp, -⟩ hearly
    obtain ⟨e, he, -⟩ := Option.bind_eq_some_iff.mp hp
    rw [hearly.parse] at he
    cases he
  · intro hclosed
    obtain ⟨hparse, -⟩ := Option.filter_eq_some_iff.mp hcompile
    obtain ⟨e', he', hlower'⟩ := Option.bind_eq_some_iff.mp hparse
    obtain ⟨⟨q, flags'⟩, hq, heq⟩ := Option.bind_eq_some_iff.mp hlower'
    obtain rfl := Option.some.inj heq
    rw [htext] at he'
    obtain hearly | ⟨e, he, rfl⟩ := Pattern.parse_of_group he'
    · exact absurd hearly hclosed
    · obtain ⟨p, flags, hp, rfl⟩ := Pattern.lower_between_ends hq
      have hmeaning : Pattern.parse? source = some p := by
        rw [Pattern.parse?, he]
        simp only [Option.bind_eq_bind, Option.bind_some, hp]
      refine ⟨p, hmeaning, fun v => ?_⟩
      unfold Matcher.accepts PatternRule.accepts
      cases v.stringForm with
      | none => simp
      | some s => simp [Pattern.isMatch_between_ends]

section Simple

attribute [local instance] Library.simple

/-- A choice of two methods is matched as a whole; a source that closes the group and opens another
is no pattern, and what starts with an a is accepted. -/
theorem PatternRule.ofSource?_whole_choice :
    (∃ r, PatternRule.ofSource? "GET|POST" = some r ∧ r.MatchesWhole)
      ∧ ∃ r, PatternRule.ofSource? "a)|(b" = some r ∧ ¬ r.MatchesWhole
        ∧ (Matcher.regex r).accepts (.string "axyz") = true := by
  have hchoice : (PatternRule.ofSource? "GET|POST").isSome = true := by decide +kernel
  have hclosing : ∃ r, PatternRule.ofSource? "a)|(b" = some r
      ∧ (Matcher.regex r).accepts (.string "axyz") = true := by
    rw [← Option.any_eq_true]
    decide +kernel
  obtain ⟨r, hr⟩ := Option.isSome_iff_exists.mp hchoice
  obtain ⟨s, hs, haccepts⟩ := hclosing
  refine ⟨⟨r, hr, (PatternRule.ofSource?_whole_iff hr).mpr ?_⟩, s, hs, fun h => ?_, haccepts⟩
  · rintro ⟨r, rest, hread⟩
    cases hread
  · exact (PatternRule.ofSource?_whole_iff hs).mp h ⟨_, _, rfl⟩

end Simple

end HttpContract.Constraint
