import HttpContract.Constraint.Matcher
import HttpContract.Proofs.Pattern.Lowered
import HttpContract.Proofs.Pattern.Rows

/-!
# Pattern — drawn texts match as a whole

A condition with a pattern draws texts for the pattern without the anchors at its ends and accepts
the texts that the pattern matches between the start and the end of the text. What it draws it
accepts (`PatternRule.yields_draw`), if the library draws only texts that the pattern spans
(`Library.DrawsMatching`): the two patterns are read as the same rows of items up to anchors, and
these hold at the ends of the text.
-/

namespace HttpContract.Pattern

open Pattern.Expr (ofItems ofBranches)

variable {text : List Char}

/-! ## Rows -/

theorem lowerAll_append (flags : Flags) (es fs : List Expr) :
    Expr.lowerAll flags (es ++ fs) = (Expr.lowerAll flags es).bind fun r =>
      (Expr.lowerAll r.2 fs).map fun t => (r.1 ++ t.1, t.2) := by
  induction es generalizing flags with
  | nil =>
    simp only [List.nil_append, Expr.lowerAll, Option.bind_some]
    cases Expr.lowerAll flags fs <;> rfl
  | cons e es ih =>
    simp only [List.cons_append, Expr.lowerAll, ih]
    cases e.lower flags with
    | none => rfl
    | some r =>
      simp only [Option.bind_eq_bind, Option.bind_some]
      cases Expr.lowerAll r.2 es with
      | none => rfl
      | some t =>
        simp only [Option.bind_some]
        cases Expr.lowerAll t.2 fs <;> rfl

theorem lower_ofItems (flags : Flags) (items : List Expr) :
    (ofItems items).lower flags = (Expr.lowerAll flags items).map fun r => (seqs r.1, r.2) := by
  cases items with
  | nil => rfl
  | cons e rest =>
    cases rest with
    | nil =>
      simp only [ofItems, Expr.lowerAll]
      cases e.lower flags <;> rfl
    | cons f rest => rfl

theorem lower_ofBranches (flags : Flags) (branches : List Expr) :
    (ofBranches branches).lower flags
      = (Expr.lowerAll flags branches).map fun r => (alts r.1, r.2) := by
  cases branches with
  | nil => rfl
  | cons e rest =>
    cases rest with
    | nil =>
      simp only [ofBranches, Expr.lowerAll]
      cases e.lower flags <;> rfl
    | cons f rest => rfl

/-- Items that ask only for what holds at a position of a text. -/
def HoldAt (text : List Char) (i : Nat) (items : List Expr) : Prop :=
  ∀ flags, ∃ ps, Expr.lowerAll flags items = some (ps, flags) ∧ Spans text (seqs ps) i i

theorem holdAt_nil (i : Nat) : HoldAt text i [] := fun _ => ⟨[], rfl, rfl⟩

theorem holdAt_startLine : HoldAt text 0 [.anchor .startLine] := fun flags => by
  refine ⟨_, rfl, rfl, (none, (text ++ []).head?), ?_, ?_⟩
  · cases text <;> rfl
  · show (if flags.multiLine then _ else _ : Assertion).holds _ = true
    split <;> rfl

theorem holdAt_endLine : HoldAt text text.length [.anchor .endLine] := fun flags => by
  obtain ⟨last, hlast⟩ : ∃ last, (none :: text.map some)[text.length]? = some last :=
    ⟨_, List.getElem?_eq_getElem (by simp)⟩
  refine ⟨_, rfl, rfl, (last, none), ?_, ?_⟩
  · rw [neighbours, List.getElem?_zip_eq_some]
    exact ⟨hlast, by simp⟩
  · show (if flags.multiLine then _ else _ : Assertion).holds _ = true
    split <;> rfl

/-- A row of items and the same row with others around it that hold at the ends of the text. The
items of a row are kept last one first. -/
def Framed (text : List Char) (row row' : List Expr) : Prop :=
  ∃ front back, row' = back ++ row ++ front ∧ HoldAt text 0 front.reverse ∧
    HoldAt text text.length back.reverse

theorem Framed.lower {row row' : List Expr} (h : Framed text row row') {flags flags' : Flags}
    {p : Pattern} (hp : (ofItems row.reverse).lower flags = some (p, flags')) :
    ∃ q, (ofItems row'.reverse).lower flags = some (q, flags') ∧
      (Spans text p 0 text.length → Spans text q 0 text.length) := by
  obtain ⟨front, back, rfl, hfront, hback⟩ := h
  rw [lower_ofItems, Option.map_eq_some_iff] at hp
  obtain ⟨⟨ps, flags₁⟩, hps, heq⟩ := hp
  cases heq
  obtain ⟨fs, hfs, hstart⟩ := hfront flags
  obtain ⟨bs, hbs, hend⟩ := hback flags₁
  refine ⟨seqs (fs ++ (ps ++ bs)), ?_, fun hspan => ?_⟩
  · rw [lower_ofItems, List.reverse_append, List.reverse_append, lowerAll_append, hfs,
      Option.bind_some, lowerAll_append, hps, Option.bind_some, hbs]
    rfl
  · rw [spans_seqs_append]
    refine ⟨0, hstart, ?_⟩
    rw [spans_seqs_append]
    exact ⟨text.length, hspan, hend⟩

theorem lowerAll_framed {rows rows' : List (List Expr)} (h : List.Forall₂ (Framed text) rows rows')
    {flags flags' : Flags} {ps : List Pattern}
    (hps : Expr.lowerAll flags (branchesOf rows) = some (ps, flags')) :
    ∃ qs, Expr.lowerAll flags (branchesOf rows') = some (qs, flags') ∧
      ((∃ p ∈ ps, Spans text p 0 text.length) → ∃ q ∈ qs, Spans text q 0 text.length) := by
  induction h generalizing flags flags' ps with
  | nil => exact ⟨ps, hps, id⟩
  | @cons row row' rows rows' hrow _ ih =>
    obtain ⟨⟨p, flags₁⟩, hp, hps⟩ := Option.bind_eq_some_iff.mp hps
    obtain ⟨⟨more, flags₂⟩, hmore, heq⟩ := Option.bind_eq_some_iff.mp hps
    cases heq
    obtain ⟨q, hq, hpq⟩ := hrow.lower hp
    obtain ⟨qs, hqs, hspans⟩ := ih hmore
    refine ⟨q :: qs, ?_, ?_⟩
    · show Expr.lowerAll flags (ofItems row'.reverse :: branchesOf rows') = _
      simp only [Expr.lowerAll, hq, hqs, Option.bind_eq_bind, Option.bind_some]
    · rintro ⟨r, hr, hspan⟩
      rcases List.mem_cons.mp hr with rfl | hr
      · exact ⟨q, by simp, hpq hspan⟩
      · obtain ⟨s, hs, hspan⟩ := hspans ⟨r, hr, hspan⟩
        exact ⟨s, by simp [hs], hspan⟩

/-- A pattern that spans a text spans it with anchors around its rows. -/
theorem lower_framed {rows rows' : List (List Expr)} (h : List.Forall₂ (Framed text) rows rows')
    {flags flags' : Flags} {p : Pattern} (hp : (ofRows rows).lower flags = some (p, flags'))
    (hspan : Spans text p 0 text.length) :
    ∃ q, (ofRows rows').lower flags = some (q, flags') ∧ Spans text q 0 text.length := by
  rw [ofRows, lower_ofBranches, Option.map_eq_some_iff] at hp
  obtain ⟨⟨ps, flags₁⟩, hps, heq⟩ := hp
  cases heq
  have hreverse : ∀ rows, (branchesOf rows).reverse = branchesOf rows.reverse := fun rows =>
    List.map_reverse.symm
  rw [hreverse] at hps
  obtain ⟨qs, hqs, hspans⟩ := lowerAll_framed (List.rel_reverse h) hps
  refine ⟨alts qs, ?_, ?_⟩
  · rw [ofRows, lower_ofBranches, hreverse, hqs]
    rfl
  · rw [spans_alts] at hspan ⊢
    exact hspans hspan

/-! ## Reading -/

/-- What stands behind a pattern: maybe the end of a line, and the end of the group. -/
inductive Ending : List Char → List Expr → Prop where
  | plain : Ending [')', '$'] []
  | anchored : Ending ['$', ')', '$'] [.anchor .endLine]

theorem Ending.closing {behind : List Char} {items : List Expr} (h : Ending behind items) :
    Closing behind := by
  cases h
  · exact ⟨⟨_, .inl rfl⟩, by decide, by decide⟩
  · exact ⟨⟨_, .inr rfl⟩, by decide, by decide⟩

/-- Reading goes on behind a pattern up to the end of the group. -/
theorem Ending.parseBranches {behind : List Char} {items row : List Expr} {left : Nat}
    {spaced : Bool} {names : List (List Char)} {rows : List (List Expr)} (h : Ending behind items)
    (hleft : 2 ≤ left) :
    parseBranches left spaced names (branchesOf rows) row behind
      = some ((ofRows ((items ++ row) :: rows), names), [')', '$']) := by
  obtain ⟨left, rfl⟩ : ∃ n, left = n + 2 := ⟨left - 2, by omega⟩
  cases h <;> cases spaced <;> rfl

/-- What is read of a whole text. -/
theorem parseBranches_of_parse {cs : List Char} {e : Expr} (h : Expr.parse? cs = some e) :
    ∃ names, parseBranches (cs.length + 1) false [] [] [] cs = some ((e, names), []) := by
  unfold Expr.parse? at h
  split at h
  · rename_i e₁ names hread
    split at h
    · cases h
      exact ⟨names, hread⟩
    · cases h
  · cases h

/-- Reading a group behind the start of a line. -/
theorem parseBranches_group (n : Nat) (cs : List Char) :
    parseBranches (n + 5) false [] [] [] ('^' :: '(' :: '?' :: ':' :: cs)
      = (parseBranches (n + 3) false [] [] [] cs).bind (behindGroup fun body names rest =>
          parseBranches (n + 3) false names [] [.group [] body, .anchor .startLine] rest) := by
  have hflags : parseFlags false [] (':' :: cs) = some (([], true), cs) := by
    unfold parseFlags
    rfl
  have hopening : parseOpening false ('?' :: ':' :: cs) = some (.plain [], cs) := by
    show (parseFlags false [] (':' :: cs)).bind _ = _
    rw [hflags]
    rfl
  show (parseOpening false ('?' :: ':' :: cs)).bind _ = _
  rw [hopening]
  rfl

/-- What stands before a pattern: maybe the start of a line. -/
inductive Start : List Char → List Expr → Prop where
  | plain : Start [] []
  | anchored : Start ['^'] [.anchor .startLine]

/-- A pattern is read as the same rows, up to anchors, if it stands in a group between anchors. -/
theorem parse_anchored {drawn front behind : List Char} {starts ends : List Expr} {e e' : Expr}
    {names : List (List Char)} (hstart : Start front starts) (hend : Ending behind ends)
    (hdrawn : parseBranches (drawn.length + 1) false [] [] [] drawn = some ((e, names), []))
    (h' : Expr.parse? ('^' :: '(' :: '?' :: ':' :: (front ++ drawn ++ behind)) = some e') :
    ∃ rows row more, e = ofRows rows ∧ List.Forall₂ (Anchored starts) rows (row :: more) ∧
      e' = .concat [.anchor .startLine, .group [] (ofRows ((ends ++ row) :: more)),
        .anchor .endLine] := by
  obtain ⟨names', hwhole⟩ := parseBranches_of_parse h'
  have hfuel : parseBranches ((front ++ drawn ++ behind).length + 3) false [] [] []
      (front ++ drawn ++ behind) = parseBranches (drawn.length + 1 + (behind.length + 2)) false []
        (branchesOf []) starts (drawn ++ behind) := by
    cases hstart with
    | plain =>
      simp only [List.nil_append, List.length_append]
      rw [show drawn.length + behind.length + 3 = drawn.length + 1 + (behind.length + 2) by omega]
      rfl
    | anchored =>
      simp only [List.cons_append, List.nil_append, List.length_append, List.length_cons]
      rw [show drawn.length + behind.length + 1 + 3
        = drawn.length + 1 + (behind.length + 2) + 1 by omega]
      rfl
  have houtcome : Outcome behind starts (behind.length + 2) [] e names _ :=
    hend.closing.parseBranches .nil (.inr (List.nil_append starts).symm) (.append drawn) hdrawn
  obtain ⟨rows, rows', hrows, hanchored, hrun⟩ := houtcome
  rw [show ('^' :: '(' :: '?' :: ':' :: (front ++ drawn ++ behind)).length + 1
    = (front ++ drawn ++ behind).length + 5 by simp, parseBranches_group, hfuel] at hwhole
  rcases hrun with ⟨rest', hrun, hnil, -⟩ | ⟨-, left, spaced, row, more, hleft, rfl, hrun⟩
  · -- a comment would take the end of the group
    rw [hrun, hnil rfl] at hwhole
    cases hwhole
  · rw [hrun, hend.parseBranches (by omega), Option.bind_some] at hwhole
    refine ⟨rows, row, more, hrows, hanchored, ?_⟩
    cases hwhole
    rfl

theorem Start.holdAt {front : List Char} {starts : List Expr} (h : Start front starts)
    (text : List Char) : HoldAt text 0 starts.reverse := by
  cases h
  · exact holdAt_nil 0
  · exact holdAt_startLine

theorem Ending.holdAt {behind : List Char} {ends : List Expr} (h : Ending behind ends)
    (text : List Char) : HoldAt text text.length ends.reverse := by
  cases h
  · exact holdAt_nil _
  · exact holdAt_endLine

/-- Rows with anchors before each and behind the last one. -/
theorem framed_of_anchored {front behind : List Char} {starts ends : List Expr}
    (hstart : Start front starts) (hend : Ending behind ends) (text : List Char)
    {rows more : List (List Expr)} {row : List Expr}
    (h : List.Forall₂ (Anchored starts) rows (row :: more)) :
    List.Forall₂ (Framed text) rows ((ends ++ row) :: more) := by
  have hframed : ∀ ends : List Expr, HoldAt text text.length ends.reverse →
      ∀ r r', Anchored starts r r' → Framed text r (ends ++ r') := by
    rintro ends hends r r' (rfl | rfl)
    · exact ⟨[], ends, by simp, holdAt_nil 0, hends⟩
    · exact ⟨starts, ends, by simp, hstart.holdAt text, hends⟩
  cases h with
  | cons hrow hmore =>
    exact .cons (hframed ends (hend.holdAt text) _ _ hrow)
      (hmore.imp (hframed [] (holdAt_nil _)))

end HttpContract.Pattern

/-! ## Libraries -/

namespace HttpContract.Library

/-- A text that is drawn for a pattern is one that the pattern spans as a whole. -/
def DrawsMatching [Library] : Prop :=
  ∀ source most text, matchingText source most = .ok text →
    text.Yields fun s => ∃ p, Pattern.parse? source = some p ∧
      Pattern.Spans s.toList p 0 s.toList.length

theorem simple_drawsMatching : simple.DrawsMatching := by
  intro source most text htext
  change Simple.matchingText source most = .ok text at htext
  unfold Simple.matchingText at htext
  split at htext
  · cases htext
  · next p hp =>
    split at htext
    · next hdraw =>
      cases htext
      have hproper : p.Proper := by
        obtain ⟨e, -, hlower⟩ := Option.bind_eq_some_iff.mp hp
        obtain ⟨⟨p₁, flags⟩, hp₁, heq⟩ := Option.bind_eq_some_iff.mp hlower
        obtain rfl := Option.some.inj heq
        exact Pattern.Expr.lower_proper hp₁
      refine (Pattern.yields_draw hproper hdraw most).bind fun cs hcs => .pure ⟨p, hp, ?_⟩
      have hspan := hcs [] []
      simpa using hspan
    · cases htext

end HttpContract.Library

namespace HttpContract.Constraint

open Pattern (Start Ending)

/-! ## Drawing -/

theorem dropFinalAnchor_eq (cs : List Char) :
    ∃ ends, cs = PatternRule.dropFinalAnchor cs ++ ends ∧ (ends = [] ∨ ends = ['$']) := by
  unfold PatternRule.dropFinalAnchor
  split
  · exact ⟨[], by simp, .inl rfl⟩
  · rename_i rest _ heq
    refine ⟨['$'], ?_, .inr rfl⟩
    rw [← List.reverse_reverse cs, heq, List.reverse_cons]
  · exact ⟨[], by simp, .inl rfl⟩

/-- The pattern that texts are drawn for stands in the source between anchors that may be
missing. -/
theorem drawnSource_eq (source : String) :
    ∃ front starts behind ends, Start front starts ∧ Ending behind ends ∧
      ("^(?:" ++ source ++ ")$").toList
        = '^' :: '(' :: '?' :: ':'
          :: (front ++ (PatternRule.drawnSource source).toList ++ behind) := by
  have htext : ("^(?:" ++ source ++ ")$").toList
      = '^' :: '(' :: '?' :: ':' :: (source.toList ++ [')', '$']) := by
    simp
  obtain ⟨front, starts, cs, hstart, hsource, hdrawn⟩ : ∃ front starts cs, Start front starts ∧
      source.toList = front ++ cs ∧ (PatternRule.drawnSource source).toList
        = PatternRule.dropFinalAnchor cs := by
    unfold PatternRule.drawnSource
    split
    · rename_i rest heq
      exact ⟨_, _, rest, .anchored, heq, by simp⟩
    · exact ⟨_, _, source.toList, .plain, rfl, by simp⟩
  rw [htext, hsource, hdrawn]
  obtain ⟨ends, hcs, hends⟩ := dropFinalAnchor_eq cs
  generalize PatternRule.dropFinalAnchor cs = drawn at hcs
  rcases hends with rfl | rfl
  · exact ⟨front, starts, _, _, hstart, .plain, by simp [hcs]⟩
  · exact ⟨front, starts, _, _, hstart, .anchored, by simp [hcs]⟩

/-- A text that is spanned by the pattern that texts are drawn for is matched as a whole. -/
theorem PatternRule.isMatch_of_spans [Library] {source : String} {r : PatternRule} {p : Pattern}
    {text : List Char} (hr : PatternRule.ofSource? source = some r)
    (hp : Pattern.parse? (PatternRule.drawnSource source) = some p)
    (hspan : Pattern.Spans text p 0 text.length) : r.anchored.isMatch text = true := by
  obtain ⟨whole, hwhole, rfl⟩ := Option.map_eq_some_iff.mp hr
  obtain ⟨hparse, -⟩ := Option.filter_eq_some_iff.mp hwhole
  obtain ⟨e', he', hlower'⟩ := Option.bind_eq_some_iff.mp hparse
  obtain ⟨⟨q, flags'⟩, hq, heq⟩ := Option.bind_eq_some_iff.mp hlower'
  obtain rfl := Option.some.inj heq
  obtain ⟨e, he, hlower⟩ := Option.bind_eq_some_iff.mp hp
  obtain ⟨⟨p₁, flags⟩, hp₁, heq⟩ := Option.bind_eq_some_iff.mp hlower
  obtain rfl := Option.some.inj heq
  obtain ⟨front, starts, behind, ends, hstart, hend, htext⟩ := drawnSource_eq source
  rw [htext] at he'
  obtain ⟨names, hread⟩ := Pattern.parseBranches_of_parse he
  obtain ⟨rows, row, more, rfl, hanchored, rfl⟩ := Pattern.parse_anchored hstart hend hread he'
  obtain ⟨inner, hinner, hspan⟩ :=
    Pattern.lower_framed (Pattern.framed_of_anchored hstart hend text hanchored) hp₁ hspan
  obtain rfl : q = Pattern.seqs [.assert .textStart, inner, .assert .textEnd] := by
    have hflags : ({} : Pattern.Flags).change [] = {} := rfl
    simp [Pattern.Expr.lower, Pattern.Expr.lowerAll, hflags, hinner, Pattern.Anchor.assertion] at hq
    exact hq.1.symm
  have hstartLine : Pattern.HoldAt text 0 _ := Pattern.holdAt_startLine
  have hendLine : Pattern.HoldAt text text.length _ := Pattern.holdAt_endLine
  obtain ⟨ps, hps, hfirst⟩ := hstartLine {}
  obtain ⟨qs, hqs, hlast⟩ := hendLine {}
  cases hps
  cases hqs
  exact Pattern.Spans.isMatch (Nat.zero_le _) ⟨0, hfirst, text.length, hspan, hlast⟩

/-- What a condition with a pattern draws it accepts, if the library draws what matches. -/
theorem PatternRule.yields_draw [Library] (hlibrary : Library.DrawsMatching) {source : String}
    {r : PatternRule} (hr : PatternRule.ofSource? source = some r) :
    r.draw.Yields fun v => r.accepts v = true := by
  have hsource : r.source = source := by
    obtain ⟨whole, -, rfl⟩ := Option.map_eq_some_iff.mp hr
    rfl
  unfold PatternRule.draw
  split
  · exact .fail
  · next text htext =>
    refine (Attempt.Yields.sample (hlibrary _ _ _ htext)).bind fun s hs => .pure ?_
    obtain ⟨p, hp, hspan⟩ := hs
    have hmatch := PatternRule.isMatch_of_spans hr (hsource ▸ hp) hspan
    simpa [PatternRule.accepts, Json.stringForm] using hmatch

end HttpContract.Constraint
