import HttpContract.Constraint.Date
import HttpContract.Proofs.Basic

/-!
# Calendar.Moment — what formats of letters mean

A format without a percent sign is split from left to right: into sections between brackets, the
longest tokens that stand at their places, and single other characters (`Splits`). There is one such
split, and `directives` puts together what its pieces are replaced by (`directives_split`). The
percent signs of the result are those that start the replacement of a token, and every replacement
is one item, so the result is always a format and no condition on dates is refused because of it.
-/

namespace HttpContract.Calendar.Moment

open Constraint (DateFault DateRule)

/-! ## Pieces -/

/-- A piece of a format: a section between brackets, a token with its directive, or another
character. -/
inductive Piece where
  | bracketed (inside : List Char)
  | token (letters directive : List Char)
  | other (c : Char)

namespace Piece

/-- The characters of a piece in the format. -/
def source : Piece → List Char
  | bracketed inside => '[' :: (inside ++ [']'])
  | token letters _ => letters
  | other c => [c]

/-- What a piece is replaced by. -/
def text : Piece → List Char
  | bracketed inside => inside
  | token _ directive => directive
  | other c => [c]

end Piece

/-- Whether a section between brackets starts a text: it ends at the first closing bracket. -/
def SectionAt (cs inside : List Char) : Prop :=
  ']' ∉ inside ∧ '[' :: (inside ++ [']']) <+: cs

/-- The piece that a text starts with: a section, else the longest token, else its first
character. -/
def Starts (cs : List Char) : Piece → Prop
  | .bracketed inside => SectionAt cs inside
  | .token letters directive =>
    (∀ inside, ¬SectionAt cs inside) ∧ (letters, directive) ∈ tokens ∧ letters <+: cs
      ∧ ∀ t ∈ tokens, t.1 <+: cs → t.1.length ≤ letters.length
  | .other c =>
    (∀ inside, ¬SectionAt cs inside) ∧ [c] <+: cs ∧ ∀ t ∈ tokens, ¬t.1 <+: cs

/-- The split of a text from left to right. -/
inductive Splits : List Char → List Piece → Prop where
  | nil : Splits [] []
  | cons {piece : Piece} {rest : List Char} {pieces : List Piece}
    (h : Starts (piece.source ++ rest) piece) :
    Splits rest pieces → Splits (piece.source ++ rest) (piece :: pieces)

/-! ## The table -/

/-- No token stands in the table in front of a longer one that starts with it. -/
theorem tokens_longest_first : tokens.Pairwise fun t u => ¬t.1 <+: u.1 := by decide

theorem token_ne_nil : ∀ t ∈ tokens, t.1 ≠ [] := by decide

/-- No two tokens have the same letters. -/
theorem tokens_nodup : (tokens.map (·.1)).Nodup := by decide

/-- A replacement has one percent sign, with which it starts, and is one item, whatever follows. -/
theorem replacement_item : ∀ t ∈ tokens, ∃ rest item, t.2 = '%' :: rest ∧ '%' ∉ rest
    ∧ ∀ more, Item.readDirective (rest ++ more) = some ([item], more) := by
  iterate 24 refine List.forall_mem_cons.mpr ⟨⟨_, _, rfl, by decide, fun _ => rfl⟩, ?_⟩
  exact List.forall_mem_nil _

/-- The token that is found is the longest one that the text starts with. -/
theorem tokenAt?_longest {cs : List Char} {t : List Char × List Char} (h : tokenAt? cs = some t) :
    t ∈ tokens ∧ t.1 <+: cs ∧ ∀ u ∈ tokens, u.1 <+: cs → u.1.length ≤ t.1.length := by
  obtain ⟨hfound, before, behind, htokens, hbefore⟩ := List.find?_eq_some_iff_append.mp h
  have ht : t.1 <+: cs := by simpa using hfound
  refine ⟨htokens ▸ by simp, ht, fun u hu hleads => Nat.le_of_not_lt fun hlt => ?_⟩
  have horder := tokens_longest_first
  rw [htokens, List.pairwise_append, List.pairwise_cons] at horder
  rw [htokens, List.mem_append, List.mem_cons] at hu
  rcases hu with hu | rfl | hu
  · have hnot : ¬u.1 <+: cs := by simpa [← Bool.not_eq_true] using hbefore u hu
    exact hnot hleads
  · exact absurd hlt (Nat.lt_irrefl _)
  · -- a longer token that stands behind would start with the one that is found
    exact horder.2.1.1 u hu (List.prefix_of_prefix_length_le ht hleads (Nat.le_of_lt hlt))

theorem tokenAt?_eq_none {cs : List Char} (h : tokenAt? cs = none) :
    ∀ t ∈ tokens, ¬t.1 <+: cs := by
  intro t ht
  simpa using List.find?_eq_none.mp h t ht

/-! ## Sections -/

/-- The section is read up to the first closing bracket. -/
theorem bracketed?_some {cs inside rest : List Char} (h : bracketed? cs = some (inside, rest)) :
    ']' ∉ inside ∧ cs = inside ++ ']' :: rest := by
  induction cs generalizing inside with
  | nil => cases h
  | cons c cs ih =>
    rw [bracketed?] at h
    split at h
    · rename_i hc
      cases h
      exact ⟨by simp, by rw [hc]; rfl⟩
    · rename_i hc
      obtain ⟨⟨more, rest'⟩, hmore, heq⟩ := Option.map_eq_some_iff.mp h
      cases heq
      obtain ⟨hclosing, rfl⟩ := ih hmore
      exact ⟨by simp [hclosing, Ne.symm hc], rfl⟩

theorem bracketed?_none {cs : List Char} (h : bracketed? cs = none) : ']' ∉ cs := by
  induction cs with
  | nil => simp
  | cons c cs ih =>
    rw [bracketed?] at h
    split at h
    · cases h
    · rename_i hc
      simp [ih (Option.map_eq_none_iff.mp h), Ne.symm hc]

/-- Where no section is read, none stands. -/
theorem not_sectionAt {c : Char} {cs : List Char}
    (h : (if c = '[' then bracketed? cs else none) = none) (inside : List Char) :
    ¬SectionAt (c :: cs) inside := by
  rintro ⟨-, rest, hrest⟩
  injection hrest with hc hcs
  rw [if_pos hc.symm] at h
  exact bracketed?_none h (hcs ▸ by simp)

/-! ## The split -/

theorem Starts.source_ne_nil {cs : List Char} {piece : Piece} (h : Starts cs piece) :
    piece.source ≠ [] := by
  cases piece with
  | token letters directive => exact token_ne_nil _ h.2.1
  | _ => exact List.cons_ne_nil _ _

theorem SectionAt.unique {cs inside inside' : List Char} (h : SectionAt cs inside)
    (h' : SectionAt cs inside') : inside = inside' := by
  obtain ⟨hclosing, rest, rfl⟩ := h
  obtain ⟨hclosing', rest', heq⟩ := h'
  simp only [List.cons_append, List.append_assoc, List.nil_append, List.cons.injEq, true_and] at heq
  -- both are what stands in front of the first closing bracket
  have htake : ∀ {as bs : List Char}, ']' ∉ as → (as ++ ']' :: bs).takeWhile (· ≠ ']') = as := by
    intro as bs has
    rw [List.takeWhile_append_of_pos]
    · simp
    · intro c hc
      have hne : c ≠ ']' := by
        rintro rfl
        exact has hc
      simpa using hne
  rw [← htake hclosing, ← htake hclosing', heq]

/-- A text starts with one piece only. -/
theorem Starts.unique {cs : List Char} {piece piece' : Piece} (h : Starts cs piece)
    (h' : Starts cs piece') : piece = piece' := by
  cases piece with
  | bracketed inside =>
    cases piece' with
    | bracketed inside' => rw [SectionAt.unique h h']
    | token => exact absurd h (h'.1 inside)
    | other => exact absurd h (h'.1 inside)
  | token letters directive =>
    obtain ⟨hsection, ht, hleads, hlongest⟩ := h
    cases piece' with
    | bracketed inside => exact absurd h' (hsection inside)
    | token letters' directive' =>
      obtain ⟨-, ht', hleads', hlongest'⟩ := h'
      have hlength : letters.length = letters'.length :=
        Nat.le_antisymm (hlongest' _ ht hleads) (hlongest _ ht' hleads')
      have hletters : letters = letters' :=
        (List.prefix_of_prefix_length_le hleads hleads' (Nat.le_of_eq hlength)).eq_of_length hlength
      subst hletters
      have hsame := List.inj_on_of_nodup_map tokens_nodup ht ht' rfl
      rw [(Prod.mk.inj hsame).2]
    | other => exact absurd hleads (h'.2.2 _ ht)
  | other c =>
    obtain ⟨hsection, hc, hnone⟩ := h
    cases piece' with
    | bracketed inside => exact absurd h' (hsection inside)
    | token => exact absurd h'.2.2.1 (hnone _ h'.2.1)
    | other d =>
      obtain ⟨rest, rfl⟩ := hc
      obtain ⟨rest', hrest⟩ := h'.2.1
      injection hrest with hd
      rw [hd]

theorem Splits.unique {cs : List Char} {pieces others : List Piece} (h : Splits cs pieces)
    (h' : Splits cs others) : others = pieces := by
  induction h generalizing others with
  | nil =>
    generalize hcs : ([] : List Char) = cs at h'
    cases h' with
    | nil => rfl
    | cons hstarts => exact absurd (List.append_eq_nil_iff.mp hcs.symm).1 hstarts.source_ne_nil
  | @cons piece rest pieces hstarts _ ih =>
    generalize hcs : piece.source ++ rest = cs at h'
    cases h' with
    | nil => exact absurd (List.append_eq_nil_iff.mp hcs).1 hstarts.source_ne_nil
    | @cons piece' rest' others hstarts' hmore =>
      obtain rfl := hstarts.unique (hcs ▸ hstarts')
      obtain rfl := List.append_cancel_left hcs
      rw [ih hmore]

theorem Splits.source_eq {cs : List Char} {pieces : List Piece} (h : Splits cs pieces) :
    pieces.flatMap Piece.source = cs := by
  induction h with
  | nil => rfl
  | cons _ _ ih => rw [List.flatMap_cons, ih]

/-! ## Replacing -/

/-- One step of replacing replaces the piece that the text starts with. -/
theorem replaceTokens_step (steps : Nat) (c : Char) (cs : List Char) :
    ∃ piece rest, c :: cs = piece.source ++ rest ∧ Starts (c :: cs) piece
      ∧ replaceTokens (steps + 1) (c :: cs) = piece.text ++ replaceTokens steps rest := by
  rw [replaceTokens]
  split
  · rename_i inside rest hbracketed
    obtain ⟨rfl, hinside⟩ := Option.ite_none_right_eq_some.mp hbracketed
    obtain ⟨hclosing, rfl⟩ := bracketed?_some hinside
    have hcs : '[' :: (inside ++ ']' :: rest) = '[' :: (inside ++ [']']) ++ rest := by simp
    exact ⟨.bracketed inside, rest, hcs, ⟨hclosing, rest, hcs.symm⟩, rfl⟩
  rename_i hsection
  split
  · rename_i letters directive htoken
    obtain ⟨ht, ⟨rest, hrest⟩, hlongest⟩ := tokenAt?_longest htoken
    refine ⟨.token letters directive, rest, hrest.symm,
      ⟨not_sectionAt hsection, ht, ⟨rest, hrest⟩, hlongest⟩, ?_⟩
    rw [← hrest, List.drop_left]
    rfl
  · rename_i hnone
    exact ⟨.other c, cs, rfl, ⟨not_sectionAt hsection, ⟨cs, rfl⟩, tokenAt?_eq_none hnone⟩, rfl⟩

/-- Replacing goes through the split of the text, in as many steps as it has characters. -/
theorem replaceTokens_splits (cs : List Char) :
    ∃ pieces, Splits cs pieces
      ∧ ∀ steps, cs.length < steps → replaceTokens steps cs = pieces.flatMap Piece.text := by
  -- by induction on the length, since a piece may have several characters
  induction hn : cs.length using Nat.strongRecOn generalizing cs with
  | _ n ih =>
    subst hn
    cases cs with
    | nil =>
      refine ⟨[], .nil, fun steps hsteps => ?_⟩
      obtain ⟨steps, rfl⟩ := Nat.exists_eq_add_one_of_ne_zero (Nat.ne_of_gt hsteps)
      rfl
    | cons c cs =>
      obtain ⟨piece, rest, hcs, hstarts, -⟩ := replaceTokens_step 0 c cs
      have hpositive := List.length_pos_iff.mpr hstarts.source_ne_nil
      have hlength : (c :: cs).length = piece.source.length + rest.length := by
        rw [hcs, List.length_append]
      obtain ⟨pieces, hsplits, hrest⟩ := ih rest.length (by omega) rest rfl
      refine ⟨piece :: pieces, hcs ▸ .cons (hcs ▸ hstarts) hsplits, fun steps hsteps => ?_⟩
      obtain ⟨steps, rfl⟩ :=
        Nat.exists_eq_add_one_of_ne_zero (Nat.ne_of_gt (Nat.zero_lt_of_lt hsteps))
      obtain ⟨piece', rest', hcs', hstarts', hstep⟩ := replaceTokens_step steps c cs
      obtain rfl := hstarts.unique hstarts'
      obtain rfl := List.append_cancel_left (hcs.symm.trans hcs')
      rw [hstep, List.flatMap_cons, hrest steps (by omega)]

/-! ## What the replacements are -/

/-- A percent sign among the replacements starts the replacement of a token. -/
theorem Splits.percent {cs before behind : List Char} {pieces : List Piece}
    (h : Splits cs pieces) (hcs : '%' ∉ cs)
    (hpercent : pieces.flatMap Piece.text = before ++ '%' :: behind) :
    ∃ first letters directive last, pieces = first ++ .token letters directive :: last
      ∧ (letters, directive) ∈ tokens ∧ before = first.flatMap Piece.text
      ∧ '%' :: behind = directive ++ last.flatMap Piece.text := by
  induction h generalizing before with
  | nil => simp at hpercent
  | @cons piece rest pieces hstarts _ ih =>
    rw [List.mem_append, not_or] at hcs
    rw [List.flatMap_cons, List.append_eq_append_iff] at hpercent
    -- the sign stands behind the replacement of the first piece, or in it
    obtain ⟨first', rfl, hlater⟩ | ⟨found, hfound, hbehind⟩ := hpercent
    · obtain ⟨first, letters, directive, last, rfl, ht, rfl, hrest⟩ := ih hcs.2 hlater
      exact ⟨piece :: first, letters, directive, last, rfl, ht, rfl, hrest⟩
    cases found with
    | nil =>
      have hfirst : pieces.flatMap Piece.text = [] ++ '%' :: behind := hbehind.symm
      obtain ⟨first, letters, directive, last, rfl, ht, hnone, hrest⟩ := ih hcs.2 hfirst
      refine ⟨piece :: first, letters, directive, last, rfl, ht, ?_, hrest⟩
      rw [List.flatMap_cons, ← hnone, List.append_nil, hfound, List.append_nil]
    | cons c found =>
      obtain ⟨rfl, hrest⟩ := List.cons.inj hbehind
      cases piece with
      | bracketed inside =>
        have hinside : inside = before ++ '%' :: found := hfound
        exact absurd (by simp [Piece.source, hinside]) hcs.1
      | token letters directive =>
        obtain ⟨more, -, hdirective, hmore, -⟩ := replacement_item _ hstarts.2.1
        have htext : directive = before ++ '%' :: found := hfound
        cases before with
        | nil =>
          exact ⟨[], letters, directive, pieces, rfl, hstarts.2.1, rfl, by rw [htext, hrest]; rfl⟩
        | cons b before =>
          have htail := (List.cons.inj (hdirective.symm.trans htext)).2
          exact absurd (by simp [htail]) hmore
      | other c =>
        have hchar : [c] = before ++ '%' :: found := hfound
        exact absurd (by simp [Piece.source, hchar]) hcs.1

/-- Characters that are no percent sign are items of their own. -/
theorem readAll_plain {plain more : List Char} {items : List Item} (hplain : '%' ∉ plain)
    (hmore : ∀ steps, more.length < steps → Item.readAll steps more = some items) (steps : Nat)
    (hsteps : (plain ++ more).length < steps) :
    Item.readAll steps (plain ++ more) = some (plain.map Item.ofChar ++ items) := by
  induction plain generalizing steps with
  | nil => exact hmore steps hsteps
  | cons c plain ih =>
    rw [List.mem_cons, not_or] at hplain
    obtain ⟨steps, rfl⟩ :=
      Nat.exists_eq_add_one_of_ne_zero (Nat.ne_of_gt (Nat.zero_lt_of_lt hsteps))
    have hrest := ih hplain.2 steps (Nat.lt_of_succ_lt_succ hsteps)
    rw [List.cons_append, Item.readAll, hrest]
    · rfl
    · exact Ne.symm hplain.1

/-- Each replacement is the text of a single item. -/
theorem ofFormat?_replacement :
    ∀ t ∈ tokens, ∃ item, Item.ofFormat? t.2 = some [item] := by
  intro t ht
  obtain ⟨rest, item, hrest, -, hread⟩ := replacement_item t ht
  have hnothing := hread []
  rw [List.append_nil] at hnothing
  refine ⟨item, ?_⟩
  rw [hrest, Item.ofFormat?, List.length_cons, Item.readAll, hnothing]
  rfl

/-- The replacements of a format are the text of some items. -/
theorem Splits.readAll {cs : List Char} {pieces : List Piece} (h : Splits cs pieces)
    (hcs : '%' ∉ cs) : ∃ items, ∀ steps, (pieces.flatMap Piece.text).length < steps →
      Item.readAll steps (pieces.flatMap Piece.text) = some items := by
  induction h with
  | nil =>
    refine ⟨[], fun steps hsteps => ?_⟩
    obtain ⟨steps, rfl⟩ := Nat.exists_eq_add_one_of_ne_zero (Nat.ne_of_gt hsteps)
    rfl
  | @cons piece rest pieces hstarts _ ih =>
    rw [List.mem_append, not_or] at hcs
    obtain ⟨items, hitems⟩ := ih hcs.2
    cases piece with
    | bracketed inside =>
      have hinside : '%' ∉ inside := fun hmem => hcs.1 (by simp [Piece.source, hmem])
      exact ⟨_, readAll_plain hinside hitems⟩
    | other c =>
      have hchar : '%' ∉ [c] := hcs.1
      exact ⟨_, readAll_plain hchar hitems⟩
    | token letters directive =>
      obtain ⟨more, item, hdirective, -, hread⟩ := replacement_item _ hstarts.2.1
      have htext : directive = '%' :: more := hdirective
      subst htext
      refine ⟨item :: items, fun steps hsteps => ?_⟩
      obtain ⟨steps, rfl⟩ :=
        Nat.exists_eq_add_one_of_ne_zero (Nat.ne_of_gt (Nat.zero_lt_of_lt hsteps))
      rw [List.flatMap_cons, Piece.text, List.cons_append] at hsteps ⊢
      simp only [List.length_cons, List.length_append] at hsteps
      rw [Item.readAll, hread]
      simp only [Option.bind_eq_bind, Option.bind_some, hitems steps (by omega)]
      rfl

/-! ## Conditions on dates -/

theorem readBound_fault {format : Option Constraint.DateFormat} {option : String}
    {text : Option String} {fault : DateFault}
    (h : DateRule.readOptional (DateRule.readBound format option) text = .error fault) :
    ∃ t, fault = .unreadable option t := by
  cases text with
  | none => cases h
  | some text =>
    simp only [DateRule.readOptional, DateRule.readBound] at h
    split at h
    · cases h
    · cases h
      exact ⟨text, rfl⟩

/-- A format that can be read is not what is wrong with a condition. -/
theorem ofOptions_ne_format {format : String} {f : Constraint.DateFormat}
    (hf : DateRule.readFormat format = .ok f) (period : Option Constraint.Period)
    (earliest latest : Option String) (t : String) :
    DateRule.ofOptions (some format) period earliest latest ≠ .error (.format t) := by
  intro h
  have hformat : DateRule.readOptional DateRule.readFormat (some format) = .ok (some f) := by
    rw [DateRule.readOptional, hf, Except.map]
  rw [DateRule.ofOptions, hformat] at h
  -- each of the later checks has a fault of its own
  cases hlo : DateRule.readOptional (DateRule.readBound (some f) "from") earliest with
  | error fault =>
    obtain ⟨text, rfl⟩ := readBound_fault hlo
    simp [bind, Except.bind, hlo] at h
  | ok lo =>
    cases hhi : DateRule.readOptional (DateRule.readBound (some f) "to") latest with
    | error fault =>
      obtain ⟨text, rfl⟩ := readBound_fault hhi
      simp [bind, Except.bind, hlo, hhi] at h
    | ok hi =>
      simp only [bind, Except.bind, hlo, hhi] at h
      split at h
      · cases h
      · split at h
        · split at h <;> cases h
        · cases h

/-! ## Formats -/

/-- A format without a percent sign has one split, and it means the replacements of its pieces put
together, which are found in as many steps as it has characters, and one. Each percent sign in them
starts the replacement of a token, each of those is a single item, and so the whole is a format
that a condition on dates can have. -/
theorem directives_split {format : String} (h : '%' ∉ format.toList) :
    (∃ pieces, Splits format.toList pieces
        ∧ (∀ others, Splits format.toList others → others = pieces)
        ∧ pieces.flatMap Piece.source = format.toList
        ∧ directives format.toList = pieces.flatMap Piece.text
        ∧ (∀ steps, format.toList.length < steps →
          replaceTokens steps format.toList = directives format.toList)
        ∧ ∀ before behind, directives format.toList = before ++ '%' :: behind →
          ∃ first letters directive last, pieces = first ++ .token letters directive :: last
            ∧ (letters, directive) ∈ tokens ∧ before = first.flatMap Piece.text
            ∧ '%' :: behind = directive ++ last.flatMap Piece.text)
      ∧ (∀ t ∈ tokens, ∃ item, Item.ofFormat? t.2 = some [item])
      ∧ (∃ items, Item.ofFormat? (directives format.toList) = some items
        ∧ DateRule.readFormat format = .ok ⟨format, items⟩)
      ∧ ∀ period earliest latest text,
        DateRule.ofOptions (some format) period earliest latest ≠ .error (.format text) := by
  obtain ⟨pieces, hsplits, hsteps⟩ := replaceTokens_splits format.toList
  have hdirectives : directives format.toList = pieces.flatMap Piece.text := by
    rw [directives, if_neg (by simpa using h), hsteps _ (Nat.lt_succ_self _)]
  obtain ⟨items, hitems⟩ := hsplits.readAll h
  have hread : Item.ofFormat? (directives format.toList) = some items := by
    rw [hdirectives]
    exact hitems _ (Nat.lt_succ_self _)
  have hformat : DateRule.readFormat format = .ok ⟨format, items⟩ := by
    rw [DateRule.readFormat, hread]
  refine ⟨⟨pieces, hsplits, fun others => hsplits.unique, hsplits.source_eq, hdirectives,
    fun steps hlt => (hsteps steps hlt).trans hdirectives.symm, fun before behind hpercent => ?_⟩,
    ofFormat?_replacement, ⟨items, hread, hformat⟩, ofOptions_ne_format hformat⟩
  exact hsplits.percent h (hdirectives.symm.trans hpercent)

/-- Tokens that overlap, a section with a token and a bracket in it, and a bracket that stays
open. -/
theorem directives_split_overlapping :
    '%' ∉ "YYYYY MMMMM[Día [DD]ssSSSZZZ[é".toList
      ∧ directives "YYYYY MMMMM[Día [DD]ssSSSZZZ[é".toList = "%YY %B%-mDía [DD%S%3f%z%:z[é".toList
      ∧ ∃ pieces, Splits "YYYYY MMMMM[Día [DD]ssSSSZZZ[é".toList pieces
        ∧ pieces.flatMap Piece.text = "%YY %B%-mDía [DD%S%3f%z%:z[é".toList := by
  have h : '%' ∉ "YYYYY MMMMM[Día [DD]ssSSSZZZ[é".toList := by decide
  have hdirectives : directives "YYYYY MMMMM[Día [DD]ssSSSZZZ[é".toList
      = "%YY %B%-mDía [DD%S%3f%z%:z[é".toList := by decide +kernel
  obtain ⟨⟨pieces, hsplits, -, -, htext, -⟩, -⟩ := directives_split h
  exact ⟨h, hdirectives, pieces, hsplits, htext.symm.trans hdirectives⟩

end HttpContract.Calendar.Moment
