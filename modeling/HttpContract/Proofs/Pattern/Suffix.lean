import HttpContract.Pattern.Parser

/-!
# Pattern — reading on behind the end

What a reader of patterns finds in a text it finds again when a closing parenthesis or the end of a
line stands behind the text, and it leaves the same rest with that behind it. Where the text ends
in a comment, the comment goes on and takes what is added as well: `Extends` allows for this.

What stands in brackets is read piece by piece, and what is behind a piece is read by the same
reader again: `piece?` and `Piece.goOn` are these two steps.
-/

namespace HttpContract.Pattern

/-- What may stand behind a text: it starts with a closing parenthesis or the end of a line. -/
structure Closing (behind : List Char) : Prop where
  head : ∃ rest, behind = ')' :: rest ∨ behind = '$' :: rest
  colon : ':' ∉ behind
  newline : '\n' ∉ behind

/-- What is left of a text, and what is left of it with more behind it: the same with that behind
it, or nothing if a comment took it. -/
def Extends (behind rest longer : List Char) : Prop :=
  longer = rest ++ behind ∨ (rest = [] ∧ longer = [])

variable {behind : List Char} {spaced : Bool}

theorem Extends.append (rest : List Char) : Extends behind rest (rest ++ behind) := .inl rfl

theorem Extends.cons {c : Char} {rest longer : List Char}
    (h : Extends behind (c :: rest) longer) : longer = c :: (rest ++ behind) := by
  rcases h with h | ⟨h, -⟩
  · exact h
  · cases h

/-- A reader that does not stop at the end of a text. -/
theorem Extends.of_ne_nil {rest longer : List Char} (h : Extends behind rest longer)
    (hne : rest ≠ []) : longer = rest ++ behind := by
  rcases h with h | ⟨h, -⟩
  · exact h
  · exact absurd h hne

/-! ## Blanks -/

theorem Closing.dropWhile (hb : Closing behind) {p : Char → Bool} (hparen : p ')' = false)
    (hline : p '$' = false) (cs : List Char) :
    (cs ++ behind).dropWhile p = cs.dropWhile p ++ behind := by
  induction cs with
  | nil =>
    obtain ⟨rest, rfl | rfl⟩ := hb.head
    · simp [hparen]
    · simp [hline]
  | cons c cs ih =>
    by_cases hc : p c = true
    · simp [hc, ih]
    · simp [hc]

theorem dropBlank_comment {cs : List Char} (h : '\n' ∉ cs) : dropBlank true cs = [] := by
  induction cs with
  | nil => rfl
  | cons c cs ih =>
    rw [List.mem_cons, not_or] at h
    have hc : (c != '\n') = true := by
      rw [bne_iff_ne]
      exact fun heq => h.1 heq.symm
    rw [dropBlank, hc]
    exact ih h.2

theorem Closing.dropBlank (hb : Closing behind) (inComment : Bool) (cs : List Char) :
    Extends behind (dropBlank inComment cs) (dropBlank inComment (cs ++ behind)) := by
  induction cs generalizing inComment with
  | nil =>
    cases inComment with
    | true => exact .inr ⟨rfl, dropBlank_comment hb.newline⟩
    | false =>
      left
      obtain ⟨rest, rfl | rfl⟩ := hb.head <;> rfl
  | cons c cs ih =>
    cases inComment with
    | true => exact ih (c != '\n')
    | false =>
      simp only [Pattern.dropBlank, List.cons_append]
      split
      · exact ih false
      split
      · exact ih true
      · exact .append (c :: cs)

theorem Closing.skipBlank (hb : Closing behind) (spaced : Bool) (cs : List Char) :
    Extends behind (skipBlank spaced cs) (skipBlank spaced (cs ++ behind)) := by
  unfold Pattern.skipBlank
  split
  · exact hb.dropBlank false cs
  · exact .append cs

theorem Closing.skipBlank_extends (hb : Closing behind) (spaced : Bool) {cs longer : List Char}
    (h : Extends behind cs longer) :
    Extends behind (Pattern.skipBlank spaced cs) (Pattern.skipBlank spaced longer) := by
  rcases h with rfl | ⟨rfl, rfl⟩
  · exact hb.skipBlank spaced cs
  · exact .inr ⟨by cases spaced <;> rfl, by cases spaced <;> rfl⟩

theorem Closing.skipBlank_self (hb : Closing behind) :
    Pattern.skipBlank spaced behind = behind := by
  obtain ⟨rest, rfl | rfl⟩ := hb.head <;> cases spaced <;> rfl

/-- The first character behind blanks stays where it is. -/
theorem Closing.skipBlank_cons (hb : Closing behind) {cs rest : List Char} {c : Char}
    (h : Pattern.skipBlank spaced cs = c :: rest) :
    Pattern.skipBlank spaced (cs ++ behind) = c :: (rest ++ behind) :=
  Extends.cons (h ▸ hb.skipBlank spaced cs)

theorem length_dropBlank_le (inComment : Bool) (cs : List Char) :
    (dropBlank inComment cs).length ≤ cs.length := by
  induction cs generalizing inComment with
  | nil => exact Nat.le_refl _
  | cons c cs ih =>
    cases inComment with
    | true => exact Nat.le_succ_of_le (ih _)
    | false =>
      simp only [dropBlank]
      split
      · exact Nat.le_succ_of_le (ih _)
      split
      · exact Nat.le_succ_of_le (ih _)
      · exact Nat.le_refl _

theorem length_skipBlank_le (spaced : Bool) (cs : List Char) :
    (skipBlank spaced cs).length ≤ cs.length := by
  unfold skipBlank
  split
  · exact length_dropBlank_le false cs
  · exact Nat.le_refl _

/-! ## Numbers -/

/-- The digits are the same and the rest extends, with fuel enough for either text. -/
theorem Closing.digitsFrom (hb : Closing behind) (spaced : Bool) {fuel more : Nat}
    {cs longer : List Char}
    (hfuel : cs.length ≤ fuel) (hmore : longer.length ≤ more) (h : Extends behind cs longer) :
    (digitsFrom spaced more longer).1 = (digitsFrom spaced fuel cs).1 ∧
      Extends behind (digitsFrom spaced fuel cs).2 (digitsFrom spaced more longer).2 := by
  induction fuel generalizing cs longer more with
  | zero =>
    obtain rfl := List.length_eq_zero_iff.mp (Nat.le_zero.mp hfuel)
    rcases h with rfl | ⟨-, rfl⟩
    · obtain ⟨rest, rfl | rfl⟩ := hb.head <;> cases more <;> exact ⟨rfl, .inl rfl⟩
    · cases more <;> exact ⟨rfl, .inr ⟨rfl, rfl⟩⟩
  | succ fuel ih =>
    cases cs with
    | nil =>
      rcases h with rfl | ⟨-, rfl⟩
      · obtain ⟨rest, rfl | rfl⟩ := hb.head <;> cases more <;> exact ⟨rfl, .inl rfl⟩
      · cases more <;> exact ⟨rfl, .inr ⟨rfl, rfl⟩⟩
    | cons c rest =>
      obtain rfl := h.cons
      obtain ⟨more, rfl⟩ : ∃ m, more = m + 1 := ⟨more - 1, by simp at hmore; omega⟩
      simp only [List.length_cons, Nat.add_le_add_iff_right] at hfuel hmore
      simp only [Pattern.digitsFrom]
      split
      · have hlen := length_skipBlank_le spaced rest
        have hlen' := length_skipBlank_le spaced (rest ++ behind)
        obtain ⟨hdigits, hrest⟩ :=
          ih (by omega) (Nat.le_trans hlen' hmore) (hb.skipBlank spaced rest)
        exact ⟨by rw [hdigits], hrest⟩
      · exact ⟨rfl, .inl rfl⟩

theorem Closing.parseCount (hb : Closing behind) {cs longer rest : List Char} {n : Nat}
    (hcs : Extends behind cs longer) (h : parseCount spaced cs = some (n, rest)) :
    ∃ rest', parseCount spaced longer = some (n, rest') ∧ Extends behind rest rest' := by
  rcases hcs with rfl | ⟨rfl, rfl⟩
  · have hstart : skipWhiteSpace (cs ++ behind) = skipWhiteSpace cs ++ behind :=
      hb.dropWhile (by decide) (by decide) cs
    obtain ⟨hdigits, hrest⟩ := hb.digitsFrom spaced (Nat.le_refl _) (Nat.le_refl _)
      (.append (skipWhiteSpace cs))
    simp only [Pattern.parseCount] at h ⊢
    rw [hstart, hdigits]
    split at h
    case isTrue => cases h
    case isFalse hfits =>
      rw [if_neg hfits]
      rw [Option.some.injEq, Prod.mk.injEq] at h
      obtain ⟨rfl, rfl⟩ := h
      refine ⟨_, rfl, hb.skipBlank_extends spaced ?_⟩
      rcases hrest with hrest | ⟨hnil, hnil'⟩
      · rw [hrest]
        exact .inl (hb.dropWhile (by decide) (by decide) _)
      · rw [hnil, hnil']
        exact .inr ⟨rfl, rfl⟩
  · cases h

theorem Closing.parseHexFixed (hb : Closing behind) {n value : Nat} {cs longer rest : List Char}
    {r : Nat} (hcs : Extends behind cs longer)
    (h : parseHexFixed spaced n value cs = some (r, rest)) :
    ∃ rest', parseHexFixed spaced n value longer = some (r, rest') ∧ Extends behind rest rest' := by
  induction n generalizing value cs longer with
  | zero =>
    cases h
    exact ⟨longer, rfl, hcs⟩
  | succ n ih =>
    have hskip := hb.skipBlank_extends spaced hcs
    rw [Pattern.parseHexFixed] at h ⊢
    split at h
    · cases h
    · rename_i c cs' heq
      rw [heq] at hskip
      rw [hskip.cons]
      simp only at h ⊢
      split at h
      case isTrue hhex =>
        rw [if_pos hhex]
        exact ih (.append cs') h
      case isFalse => cases h

theorem Closing.parseHexBraced (hb : Closing behind) {fuel more : Nat} (hmore : fuel ≤ more)
    {ds cs rs rest : List Char} (h : parseHexBraced spaced fuel ds cs = some (rs, rest)) :
    parseHexBraced spaced more ds (cs ++ behind) = some (rs, rest ++ behind) := by
  induction fuel generalizing ds cs more with
  | zero => cases h
  | succ fuel ih =>
    obtain ⟨more, rfl⟩ : ∃ m, more = m + 1 := ⟨more - 1, by omega⟩
    rw [Pattern.parseHexBraced] at h ⊢
    split at h
    · cases h
    · rename_i c cs' heq
      rw [hb.skipBlank_cons heq]
      simp only at h ⊢
      split at h
      case isTrue hbrace =>
        cases h
        rw [if_pos hbrace]
      case isFalse hbrace =>
        rw [if_neg hbrace]
        split at h
        case isTrue hhex =>
          rw [if_pos hhex]
          exact ih (by omega) h
        case isFalse => cases h

theorem Closing.parseHex (hb : Closing behind) {kind : Char} {cs rest : List Char}
    {r : Char × Bool} (h : parseHex spaced kind cs = some (r, rest)) :
    ∃ rest', parseHex spaced kind (cs ++ behind) = some (r, rest') ∧ Extends behind rest rest' := by
  rw [Pattern.parseHex] at h ⊢
  split at h
  · cases h
  · rename_i inner heq
    obtain ⟨⟨ds, after⟩, hbraced, h⟩ := Option.bind_eq_some_iff.mp h
    have hlen : inner.length + 1 ≤ (inner ++ behind).length + 1 := by simp
    have hbraced' := hb.parseHexBraced hlen hbraced
    rw [hb.skipBlank_cons heq]
    simp only [hbraced', Option.bind_eq_bind, Option.bind_some] at h ⊢
    split at h
    case isTrue => cases h
    case isFalse hdigits =>
      rw [if_neg hdigits]
      obtain ⟨c, hc, h⟩ := Option.bind_eq_some_iff.mp h
      cases h
      exact ⟨_, by rw [hc]; rfl, hb.skipBlank spaced after⟩
  · rename_i hne hbrace
    obtain ⟨⟨n, after⟩, hfixed, h⟩ := Option.bind_eq_some_iff.mp h
    obtain ⟨c, hc, h⟩ := Option.bind_eq_some_iff.mp h
    cases h
    obtain ⟨first, inner, heq⟩ := List.exists_cons_of_ne_nil hne
    have hfirst : first ≠ '{' := by
      rintro rfl
      exact hbrace inner heq
    rw [hb.skipBlank_cons heq]
    rw [heq] at hfixed
    obtain ⟨after', hfixed', hafter⟩ := hb.parseHexFixed (.append _) hfixed
    split
    · rename_i h'
      cases h'
    · rename_i h'
      cases h'
      exact absurd rfl hfirst
    · rw [List.cons_append] at hfixed'
      exact ⟨_, by simp [hfixed', hc], hb.skipBlank_extends spaced hafter⟩

/-! ## Escapes -/

theorem Closing.parseBraced (hb : Closing behind) {fuel more : Nat} (hmore : fuel ≤ more)
    {name cs rs rest : List Char} (h : parseBraced spaced fuel name cs = some (rs, rest)) :
    parseBraced spaced more name (cs ++ behind) = some (rs, rest ++ behind) := by
  induction fuel generalizing name cs more with
  | zero => cases h
  | succ fuel ih =>
    obtain ⟨more, rfl⟩ : ∃ m, more = m + 1 := ⟨more - 1, by omega⟩
    rw [Pattern.parseBraced] at h ⊢
    split at h
    · cases h
    · rename_i c cs' heq
      rw [hb.skipBlank_cons heq]
      simp only at h ⊢
      split at h
      case isTrue hbrace =>
        cases h
        rw [if_pos hbrace]
      case isFalse hbrace =>
        rw [if_neg hbrace]
        exact ih (by omega) h

theorem Closing.parseProperty (hb : Closing behind) {cs rest : List Char}
    {r : PropertyQuery × Bool} (h : parseProperty spaced cs = some (r, rest)) :
    ∃ rest', parseProperty spaced (cs ++ behind) = some (r, rest') ∧
      Extends behind rest rest' := by
  rw [Pattern.parseProperty] at h ⊢
  split at h
  · cases h
  · rename_i inner heq
    obtain ⟨⟨name, after⟩, hbraced, h⟩ := Option.bind_eq_some_iff.mp h
    have hlen : inner.length + 1 ≤ (inner ++ behind).length + 1 := by simp
    have hbraced' := hb.parseBraced hlen hbraced
    cases h
    rw [hb.skipBlank_cons heq]
    exact ⟨_, by simp only [hbraced', Option.bind_eq_bind, Option.bind_some], .append rest⟩
  · cases h
  · rename_i c after hbrace hslash heq
    cases h
    rw [hb.skipBlank_cons heq]
    split
    · rename_i h'
      cases h'
    · rename_i h'
      cases h'
      exact (hbrace rfl).elim
    · rename_i h'
      cases h'
      exact (hslash rfl).elim
    · rename_i h'
      cases h'
      exact ⟨_, rfl, hb.skipBlank spaced after⟩

theorem Closing.parseBoundaryName (hb : Closing behind) {cs rest : List Char} {a : Anchor}
    (h : parseBoundaryName spaced cs = some (a, rest)) :
    parseBoundaryName spaced (cs ++ behind) = some (a, rest ++ behind) := by
  unfold Pattern.parseBoundaryName at h ⊢
  split at h
  · rename_i inner
    simp only [List.cons_append] at h ⊢
    split at h
    · cases h
    · rename_i first inner' heq
      rw [hb.skipBlank_cons heq]
      simp only at h ⊢
      split at h
      case isTrue hletters =>
        cases h
        rw [if_pos hletters]
        rfl
      case isFalse hletters =>
        rw [if_neg hletters]
        split at h
        · cases h
        · rename_i name after hbraced
          have hlen : inner.length + 1 ≤ (inner ++ behind).length + 1 := by simp
          rw [hb.parseBraced hlen hbraced]
          simp only
          split at h
          all_goals
            first
            | cases h
              rfl
            | cases h
  · rename_i hbrace
    cases h
    split
    · rename_i inner heq
      cases cs with
      | nil => obtain ⟨after, rfl | rfl⟩ := hb.head <;> cases heq
      | cons c cs =>
        cases heq
        exact absurd rfl (hbrace cs)
    · rfl

theorem Closing.parseEscape (hb : Closing behind) {cs rest : List Char} {e : Escape}
    (h : parseEscape spaced cs = some (e, rest)) :
    ∃ rest', parseEscape spaced (cs ++ behind) = some (e, rest') ∧ Extends behind rest rest' := by
  cases cs with
  | nil => cases h
  | cons c cs =>
    simp only [Pattern.parseEscape, List.cons_append] at h ⊢
    split at h
    · cases h
    rename_i hdigit
    rw [if_neg hdigit]
    split at h
    case isTrue hhex =>
      rw [if_pos hhex]
      obtain ⟨⟨r, after⟩, hr, h⟩ := Option.map_eq_some_iff.mp h
      cases h
      obtain ⟨after', hr', hafter⟩ := hb.parseHex hr
      exact ⟨after', by rw [hr']; rfl, hafter⟩
    rename_i hhex
    rw [if_neg hhex]
    split at h
    case isTrue hproperty =>
      rw [if_pos hproperty]
      obtain ⟨⟨r, after⟩, hr, h⟩ := Option.map_eq_some_iff.mp h
      cases h
      obtain ⟨after', hr', hafter⟩ := hb.parseProperty hr
      exact ⟨after', by rw [hr']; rfl, hafter⟩
    rename_i hproperty
    rw [if_neg hproperty]
    split at h
    case isTrue hdigits =>
      cases h
      exact ⟨_, if_pos hdigits, .append rest⟩
    rename_i hdigits
    rw [if_neg hdigits]
    split at h
    case isTrue hspaces =>
      cases h
      exact ⟨_, if_pos hspaces, .append rest⟩
    rename_i hspaces
    rw [if_neg hspaces]
    split at h
    case isTrue hwords =>
      cases h
      exact ⟨_, if_pos hwords, .append rest⟩
    rename_i hwords
    rw [if_neg hwords]
    split at h
    case isTrue hescapable =>
      cases h
      exact ⟨_, if_pos hescapable, .append rest⟩
    rename_i hescapable
    rw [if_neg hescapable]
    split at h
    case h_9 =>
      obtain ⟨⟨a, after⟩, ha, h⟩ := Option.map_eq_some_iff.mp h
      cases h
      exact ⟨_, by rw [hb.parseBoundaryName ha]; rfl, .append _⟩
    case h_13 => cases h
    all_goals
      cases h
      exact ⟨_, rfl, .append rest⟩

/-! ## Brackets -/

theorem Closing.posixName? (hb : Closing behind) (negated : Bool) (cs : List Char) :
    posixName? negated (cs ++ behind)
      = (posixName? negated cs).map fun r => (r.1, r.2 ++ behind) := by
  have htakes : ∀ (name : List Char), ':' ∉ name → ∀ c ∈ name, (c != ':') = true := by
    rintro name hname c hc
    rw [bne_iff_ne]
    rintro rfl
    exact hname hc
  by_cases hcolon : ':' ∈ cs
  · -- the name ends within the text
    obtain ⟨name, after, rfl, hname⟩ := List.eq_append_cons_of_mem hcolon
    have htake : ∀ rest, (name ++ ':' :: rest).takeWhile (· != ':') = name := fun rest => by
      rw [List.takeWhile_append_of_pos (htakes name hname)]
      simp
    rw [List.append_assoc, List.cons_append]
    simp only [Pattern.posixName?, htake, List.drop_left]
    cases after with
    | nil => obtain ⟨rest, rfl | rfl⟩ := hb.head <;> rfl
    | cons c after =>
      by_cases hc : c = ']'
      · subst hc
        simp only [List.cons_append, Option.map_map]
        rfl
      · simp [hc]
  · -- there is no colon at all
    have hnone : ∀ ds : List Char, ':' ∉ ds → Pattern.posixName? negated ds = none := fun ds h => by
      have htake : ds.takeWhile (· != ':') = ds := by
        rw [← List.append_nil ds, List.takeWhile_append_of_pos (htakes ds h)]
        rfl
      simp [Pattern.posixName?, htake]
    rw [hnone cs hcolon, hnone]
    · rfl
    · rw [List.mem_append, not_or]
      exact ⟨hcolon, hb.colon⟩

theorem Closing.posixClass? (hb : Closing behind) (cs : List Char) :
    posixClass? (cs ++ behind) = (posixClass? cs).map fun r => (r.1, r.2 ++ behind) := by
  cases cs with
  | nil => obtain ⟨rest, rfl | rfl⟩ := hb.head <;> rfl
  | cons c rest =>
    by_cases hc : c = ':'
    · subst hc
      cases rest with
      | nil =>
        have h := hb.posixName? false []
        obtain ⟨after, rfl | rfl⟩ := hb.head <;> exact h
      | cons d rest =>
        by_cases hd : d = '^'
        · subst hd
          exact hb.posixName? true rest
        · have h := hb.posixName? false (d :: rest)
          simpa [Pattern.posixClass?, hd] using h
    · simp [Pattern.posixClass?, hc]

theorem Closing.parseMember (hb : Closing behind) {cs rest : List Char} {m : Member}
    (h : parseMember spaced cs = some (m, rest)) :
    ∃ rest', parseMember spaced (cs ++ behind) = some (m, rest') ∧ Extends behind rest rest' := by
  unfold Pattern.parseMember at h ⊢
  split at h
  · cases h
  · rename_i inner
    simp only [List.cons_append] at h ⊢
    split at h
    · rename_i c byte after hescape
      cases h
      obtain ⟨after', hescape', hafter⟩ := hb.parseEscape hescape
      rw [hescape']
      exact ⟨after', rfl, hafter⟩
    · rename_i set negated after hescape
      cases h
      obtain ⟨after', hescape', hafter⟩ := hb.parseEscape hescape
      rw [hescape']
      exact ⟨after', rfl, hafter⟩
    · cases h
  · rename_i c after hslash
    cases h
    simp only [List.cons_append]
    exact ⟨_, rfl, .append rest⟩

/-- The range between two members, if they are characters in their order. -/
def rangeBetween? : Member → Member → Option ClassExpr
  | .literal a aByte, .literal b bByte => if a ≤ b then some (.range a b (aByte || bByte)) else none
  | _, _ => none

/-- A member and what is left behind it, blanks being dropped: no dash follows. -/
theorem parseRange_single {m : Member} {cs after rest : List Char} {c : Char}
    (hmember : parseMember spaced cs = some (m, after))
    (h : skipBlank spaced after = c :: rest) (hc : c ≠ '-') :
    parseRange spaced cs = some (m.toClass, c :: rest) := by
  rw [parseRange, hmember]
  simp only [Option.bind_eq_bind, Option.bind_some, h]
  split
  · next h' => cases h'
  · next h' =>
    cases h'
    exact absurd rfl hc
  · rfl

/-- A member with a dash behind it and another member. -/
theorem parseRange_between {m : Member} {cs after afterDash rest : List Char} {c : Char}
    (hmember : parseMember spaced cs = some (m, after))
    (h : skipBlank spaced after = '-' :: afterDash) (hnext : skipBlank spaced afterDash = c :: rest)
    (hclose : c ≠ ']') (hdash : c ≠ '-') :
    parseRange spaced cs = (parseMember spaced (c :: rest)).bind fun r =>
      (rangeBetween? m r.1).map (·, r.2) := by
  rw [parseRange, hmember]
  simp only [Option.bind_eq_bind, Option.bind_some, h, hnext]
  split
  · next h' =>
    cases h'
    exact absurd rfl hclose
  · next h' =>
    cases h'
    exact absurd rfl hdash
  · next h' => cases h'
  · refine congrArg (Option.bind _) (funext fun r => ?_)
    obtain ⟨last, end'⟩ := r
    cases m with
    | named set negated => rfl
    | literal a aByte =>
      cases last with
      | named set negated => rfl
      | literal b bByte =>
        simp only [rangeBetween?]
        split <;> rfl

/-- A member with a dash behind it that starts no range. -/
theorem parseRange_dash {m : Member} {cs after afterDash rest : List Char} {c : Char}
    (hmember : parseMember spaced cs = some (m, after))
    (h : skipBlank spaced after = '-' :: afterDash) (hnext : skipBlank spaced afterDash = c :: rest)
    (hc : c = ']' ∨ c = '-') :
    parseRange spaced cs = some (m.toClass, '-' :: afterDash) := by
  rw [parseRange, hmember]
  simp only [Option.bind_eq_bind, Option.bind_some, h, hnext]
  obtain rfl | rfl := hc <;> rfl

theorem Closing.parseRange (hb : Closing behind) {cs rest : List Char} {set : ClassExpr}
    (h : parseRange spaced cs = some (set, rest)) :
    ∃ rest', parseRange spaced (cs ++ behind) = some (set, rest') ∧ Extends behind rest rest' := by
  obtain ⟨⟨member, after⟩, hmember, hread⟩ := Option.bind_eq_some_iff.mp h
  obtain ⟨after', hmember', hafter⟩ := hb.parseMember hmember
  have hskip := hb.skipBlank_extends spaced hafter
  cases heq : Pattern.skipBlank spaced after with
  | nil =>
    simp only [heq] at hread
    cases hread
  | cons c afterDash =>
    rw [heq] at hskip
    have hskip := hskip.cons
    by_cases hc : c = '-'
    · subst hc
      cases heq' : Pattern.skipBlank spaced afterDash with
      | nil =>
        simp only [heq, heq'] at hread
        cases hread
      | cons d inner =>
        have hnext := hb.skipBlank_cons heq'
        by_cases hd : d = ']' ∨ d = '-'
        · rw [parseRange_dash hmember heq heq' hd] at h
          cases h
          exact ⟨_, parseRange_dash hmember' hskip hnext hd, .append _⟩
        · rw [not_or] at hd
          rw [parseRange_between hmember heq heq' hd.1 hd.2] at h
          obtain ⟨⟨last, behindLast⟩, hlast, h⟩ := Option.bind_eq_some_iff.mp h
          obtain ⟨range, hrange, h⟩ := Option.map_eq_some_iff.mp h
          cases h
          obtain ⟨behindLast', hlast', hbehind⟩ := hb.parseMember hlast
          refine ⟨behindLast', ?_, hbehind⟩
          rw [parseRange_between hmember' hskip hnext hd.1 hd.2, ← List.cons_append, hlast',
            Option.bind_some, hrange]
          rfl
    · rw [parseRange_single hmember heq hc] at h
      cases h
      exact ⟨_, parseRange_single hmember' hskip hc, .append _⟩

theorem Closing.openingMembers (hb : Closing behind) {fuel more : Nat} (hmore : fuel ≤ more)
    {set set' : ClassExpr} {cs rest : List Char}
    (h : openingMembers spaced fuel set cs = some (set', rest)) :
    openingMembers spaced more set (cs ++ behind) = some (set', rest ++ behind) := by
  induction fuel generalizing set cs more with
  | zero => cases h
  | succ fuel ih =>
    obtain ⟨more, rfl⟩ : ∃ m, more = m + 1 := ⟨more - 1, by omega⟩
    unfold Pattern.openingMembers at h ⊢
    split at h
    · cases h
    · rename_i inner
      simp only [List.cons_append]
      rcases hb.skipBlank spaced inner with heq | ⟨hnil, -⟩
      · rw [heq]
        exact ih (by omega) h
      · rw [hnil] at h
        cases fuel <;> cases h
    · rename_i inner
      simp only [List.cons_append]
      split at h
      case isTrue hset =>
        rw [if_pos hset]
        split at h
        · cases h
        · rename_i hnil
          obtain ⟨first, after, heq⟩ := List.exists_cons_of_ne_nil hnil
          cases h
          rw [hb.skipBlank_cons heq, heq]
          rfl
      case isFalse hset =>
        cases h
        rw [if_neg hset]
        rfl
    · rename_i hnil hdash hclose
      cases h
      obtain ⟨first, after, rfl⟩ := List.exists_cons_of_ne_nil hnil
      rw [List.cons_append]
      split
      · rename_i heq
        cases heq
      · rename_i heq
        cases heq
        exact (hdash after rfl).elim
      · rename_i heq
        cases heq
        exact (hclose after rfl).elim
      · rfl

theorem Closing.parseNegation (hb : Closing behind) (spaced : Bool) {cs longer : List Char}
    (h : Extends behind cs longer) :
    (parseNegation spaced longer).1 = (parseNegation spaced cs).1 ∧
      Extends behind (parseNegation spaced cs).2 (parseNegation spaced longer).2 := by
  have hskip := hb.skipBlank_extends spaced h
  unfold Pattern.parseNegation
  cases heq : Pattern.skipBlank spaced cs with
  | nil =>
    rw [heq] at hskip
    rcases hskip with hskip | ⟨-, hskip⟩
    · rw [hskip]
      obtain ⟨after, rfl | rfl⟩ := hb.head <;> exact ⟨rfl, .inl rfl⟩
    · rw [hskip]
      exact ⟨rfl, .inr ⟨rfl, rfl⟩⟩
  | cons c rest =>
    rw [heq] at hskip
    rw [hskip.cons]
    by_cases hc : c = '^'
    · subst hc
      exact ⟨rfl, hb.skipBlank spaced rest⟩
    · split
      · rename_i heq'
        cases heq'
        exact absurd rfl hc
      · split
        · rename_i heq'
          cases heq'
          exact absurd rfl hc
        · exact ⟨rfl, .append (c :: rest)⟩

/-- What stands next inside of brackets: their end, a set of its own, the opening of brackets within
them or an operator. -/
inductive Piece where
  | close
  | set (members : ClassExpr)
  | nested (negated : Bool) (opening : ClassExpr)
  | operator (o : SetOperator)

/-- Reads what comes first in brackets: the caret that negates them and the members that could be
taken for an operator or for their end. -/
def parseOpened (spaced : Bool) (cs : List Char) : Option ((Bool × ClassExpr) × List Char) :=
  let (negated, rest) := parseNegation spaced cs
  (openingMembers spaced (rest.length + 1) .none rest).map fun r => ((negated, r.1), r.2)

/-- Reads a piece that no blanks stand before. -/
def pieceOf? (spaced : Bool) : List Char → Option (Piece × List Char)
  | [] => none
  | '[' :: rest =>
    match posixClass? rest with
    | some (named, rest) => some (.set named, rest)
    | none => (parseOpened spaced rest).map fun r => (.nested r.1.1 r.1.2, r.2)
  | ']' :: rest => some (.close, rest)
  | '&' :: '&' :: rest => some (.operator .intersection, rest)
  | '-' :: '-' :: rest => some (.operator .difference, rest)
  | '~' :: '~' :: rest => some (.operator .symmetricDifference, rest)
  | cs => (parseRange spaced cs).map fun r => (.set r.1, r.2)

/-- Reads a piece of what stands in brackets. -/
def piece? (spaced : Bool) (cs : List Char) : Option (Piece × List Char) :=
  pieceOf? spaced (skipBlank spaced cs)

/-- Goes on behind a piece of what stands in brackets. -/
def Piece.goOn (spaced : Bool) (fuel : Nat) (waiting : Option (SetOperator × ClassExpr))
    (set : ClassExpr) : Piece × List Char → Option (ClassExpr × List Char)
  | (.close, rest) => some (closeOperand waiting set, rest)
  | (.set members, rest) => parseBrackets spaced fuel waiting (.union set members) rest
  | (.nested negated opening, rest) =>
    (parseBrackets spaced fuel none opening rest).bind fun r =>
      parseBrackets spaced fuel waiting (.union set (.bracketed negated r.1)) r.2
  | (.operator o, rest) =>
    parseBrackets spaced fuel (some (o, closeOperand waiting set)) .none rest

/-- What opens nothing, closes nothing and is no operator starts a member. -/
theorem pieceOf?_member {cs : List Char} (hnil : cs ≠ []) (hopen : ∀ rest, cs ≠ '[' :: rest)
    (hclose : ∀ rest, cs ≠ ']' :: rest) (hand : ∀ rest, cs ≠ '&' :: '&' :: rest)
    (hdash : ∀ rest, cs ≠ '-' :: '-' :: rest) (htilde : ∀ rest, cs ≠ '~' :: '~' :: rest) :
    pieceOf? spaced cs = (parseRange spaced cs).map fun r => (.set r.1, r.2) := by
  rw [pieceOf?] <;> assumption

theorem parseBrackets_succ {fuel : Nat} {waiting : Option (SetOperator × ClassExpr)}
    {set : ClassExpr} {cs : List Char} :
    parseBrackets spaced (fuel + 1) waiting set cs
      = (piece? spaced cs).bind (Piece.goOn spaced fuel waiting set) := by
  rw [parseBrackets, piece?]
  split
  · next heq => rw [heq]; rfl
  · next rest heq =>
    rw [heq, pieceOf?]
    cases posixClass? rest with
    | some r =>
      obtain ⟨named, after⟩ := r
      rfl
    | none =>
      simp only [parseOpened, Option.map_map, Option.bind_map]
      rfl
  iterate 4
    · next heq => rw [heq]; rfl
  · next hnil hopen hclose hand hdash htilde =>
    rw [pieceOf?_member hnil hopen hclose hand hdash htilde, Option.bind_map]
    rfl

theorem parseClass_eq {cs : List Char} :
    parseClass spaced cs = (parseOpened spaced cs).bind fun r =>
      (parseBrackets spaced (r.2.length + 1) none r.1.2 r.2).bind fun body =>
        some (.bracketed r.1.1 body.1, body.2) := by
  rw [parseClass, parseOpened, Option.bind_map]
  rfl

theorem Closing.parseOpened (hb : Closing behind) {cs rest : List Char} {r : Bool × ClassExpr}
    (h : parseOpened spaced cs = some (r, rest)) :
    parseOpened spaced (cs ++ behind) = some (r, rest ++ behind) := by
  unfold Pattern.parseOpened at h ⊢
  rcases hnegation : Pattern.parseNegation spaced cs with ⟨negated, opened⟩
  obtain ⟨hnegated, hopened⟩ := hb.parseNegation spaced (.append cs)
  rw [hnegation] at h hnegated hopened
  obtain ⟨⟨set, after⟩, hset, h⟩ := Option.map_eq_some_iff.mp h
  cases h
  have hne : opened ≠ [] := by
    rintro rfl
    cases hset
  have hnegation' : Pattern.parseNegation spaced (cs ++ behind) = (negated, opened ++ behind) :=
    Prod.ext hnegated (hopened.of_ne_nil hne)
  rw [hnegation']
  exact congrArg (Option.map _) (hb.openingMembers (by simp) hset)

/-- A text in front of a closing has a certain character at its second place only if it has it
itself. -/
theorem Closing.second (hb : Closing behind) {c d : Char} {cs rest : List Char}
    (hparen : d ≠ ')') (hline : d ≠ '$') (h : c :: (cs ++ behind) = c :: d :: rest) :
    ∃ inner, cs = d :: inner := by
  cases cs with
  | nil =>
    obtain ⟨after, rfl | rfl⟩ := hb.head
    · cases h
      exact absurd rfl hparen
    · cases h
      exact absurd rfl hline
  | cons e inner =>
    cases h
    exact ⟨inner, rfl⟩

/-- What stands behind the text makes no operator of its last character. -/
theorem Closing.pieceOf?_member (hb : Closing behind) {cs : List Char} (hnil : cs ≠ [])
    (hopen : ∀ rest, cs ≠ '[' :: rest) (hclose : ∀ rest, cs ≠ ']' :: rest)
    (hand : ∀ rest, cs ≠ '&' :: '&' :: rest) (hdash : ∀ rest, cs ≠ '-' :: '-' :: rest)
    (htilde : ∀ rest, cs ≠ '~' :: '~' :: rest) :
    pieceOf? spaced (cs ++ behind)
      = (Pattern.parseRange spaced (cs ++ behind)).map fun r => (.set r.1, r.2) := by
  obtain ⟨first, inner, rfl⟩ := List.exists_cons_of_ne_nil hnil
  have htwice : ∀ {c : Char}, c ≠ ')' → c ≠ '$' → (∀ rest, first :: inner ≠ c :: c :: rest) →
      ∀ rest, first :: inner ++ behind ≠ c :: c :: rest := by
    intro c hparen hline hc rest h
    obtain rfl := (List.cons.inj h).1
    obtain ⟨inner', rfl⟩ := hb.second hparen hline h
    exact hc inner' rfl
  refine Pattern.pieceOf?_member nofun ?_ ?_ ?_ ?_ ?_
  · rintro rest h
    cases h
    exact hopen inner rfl
  · rintro rest h
    cases h
    exact hclose inner rfl
  · exact htwice (by decide) (by decide) hand
  · exact htwice (by decide) (by decide) hdash
  · exact htwice (by decide) (by decide) htilde

theorem Closing.piece? (hb : Closing behind) {cs rest : List Char} {p : Piece}
    (h : piece? spaced cs = some (p, rest)) :
    ∃ rest', piece? spaced (cs ++ behind) = some (p, rest') ∧ Extends behind rest rest'
      ∧ (p = .close → rest' = rest ++ behind) := by
  rw [Pattern.piece?] at h ⊢
  cases heq : Pattern.skipBlank spaced cs with
  | nil =>
    rw [heq] at h
    cases h
  | cons first inner =>
    rw [heq] at h
    rw [hb.skipBlank_cons heq]
    unfold pieceOf? at h
    split at h
    · cases h
    · next h' =>
      cases h'
      rw [pieceOf?, hb.posixClass?]
      split at h
      · next hposix =>
        cases h
        rw [hposix]
        exact ⟨_, rfl, .append _, nofun⟩
      · next hposix =>
        obtain ⟨⟨r, after⟩, hopened, h⟩ := Option.map_eq_some_iff.mp h
        cases h
        rw [hposix]
        exact ⟨_, congrArg (Option.map _) (hb.parseOpened hopened), .append _, nofun⟩
    iterate 4
      · next h' =>
        cases h'
        cases h
        exact ⟨_, rfl, .append _, fun _ => rfl⟩
    · next hnil hopen hclose hand hdash htilde =>
      obtain ⟨⟨member, after⟩, hmember, h⟩ := Option.map_eq_some_iff.mp h
      cases h
      obtain ⟨after', hmember', hafter⟩ := hb.parseRange hmember
      rw [← List.cons_append, hb.pieceOf?_member hnil hopen hclose hand hdash htilde, hmember']
      exact ⟨after', rfl, hafter, nofun⟩

/-- Brackets are closed by something. -/
theorem ne_nil_of_parseBrackets {fuel : Nat} {waiting : Option (SetOperator × ClassExpr)}
    {set : ClassExpr} {cs : List Char} {r : ClassExpr × List Char}
    (h : parseBrackets spaced fuel waiting set cs = some r) : cs ≠ [] := by
  rintro rfl
  cases fuel <;> cases spaced <;> cases h

theorem Closing.parseBrackets (hb : Closing behind) {fuel more : Nat} (hmore : fuel ≤ more)
    {waiting : Option (SetOperator × ClassExpr)} {set set' : ClassExpr} {cs rest : List Char}
    (h : parseBrackets spaced fuel waiting set cs = some (set', rest)) :
    parseBrackets spaced more waiting set (cs ++ behind) = some (set', rest ++ behind) := by
  induction fuel generalizing waiting set set' cs rest more with
  | zero => cases h
  | succ fuel ih =>
    obtain ⟨more, rfl⟩ : ∃ m, more = m + 1 := ⟨more - 1, by omega⟩
    have hmore : fuel ≤ more := by omega
    rw [parseBrackets_succ] at h ⊢
    obtain ⟨⟨p, after⟩, hp, h⟩ := Option.bind_eq_some_iff.mp h
    obtain ⟨after', hp', hafter, hclose⟩ := hb.piece? hp
    rw [hp', Option.bind_some]
    cases p with
    | close =>
      cases h
      rw [hclose rfl]
      rfl
    | set members =>
      rw [hafter.of_ne_nil (ne_nil_of_parseBrackets h)]
      exact ih hmore h
    | nested negated opening =>
      obtain ⟨⟨body, afterBody⟩, hbody, h⟩ := Option.bind_eq_some_iff.mp h
      rw [hafter.of_ne_nil (ne_nil_of_parseBrackets hbody), Piece.goOn, ih hmore hbody]
      exact ih hmore h
    | operator o =>
      rw [hafter.of_ne_nil (ne_nil_of_parseBrackets h)]
      exact ih hmore h

theorem Closing.parseClass (hb : Closing behind) {cs rest : List Char} {e : Expr}
    (h : parseClass spaced cs = some (e, rest)) :
    parseClass spaced (cs ++ behind) = some (e, rest ++ behind) := by
  rw [parseClass_eq] at h ⊢
  obtain ⟨⟨⟨negated, opening⟩, after⟩, hopened, h⟩ := Option.bind_eq_some_iff.mp h
  obtain ⟨⟨body, afterBody⟩, hbody, h⟩ := Option.bind_eq_some_iff.mp h
  cases h
  have hlen : after.length + 1 ≤ (after ++ behind).length + 1 := by simp
  rw [hb.parseOpened hopened, Option.bind_some, hb.parseBrackets hlen hbody]
  rfl

/-! ## Groups and repetitions -/

theorem parseFlags_append (behind : List Char) {negating grouping : Bool}
    {change change' : FlagChange}
    {cs rest : List Char}
    (h : parseFlags negating change cs = some ((change', grouping), rest)) :
    parseFlags negating change (cs ++ behind) = some ((change', grouping), rest ++ behind) := by
  induction cs generalizing negating change with
  | nil => cases h
  | cons c cs ih =>
    rw [List.cons_append]
    unfold parseFlags at h ⊢
    split at h
    case isTrue hcolon =>
      cases h
      exact if_pos hcolon
    rename_i hcolon
    rw [if_neg hcolon]
    split at h
    case isTrue hclose =>
      cases h
      exact if_pos hclose
    rename_i hclose
    rw [if_neg hclose]
    split at h
    case isTrue hdash =>
      rw [if_pos hdash]
      cases negating with
      | true => cases h
      | false =>
        cases cs with
        | nil => cases h
        | cons d cs =>
          rw [List.cons_append]
          by_cases hd : d = ':' ∨ d = ')'
          · rcases hd with rfl | rfl <;> cases h
          · rw [not_or] at hd
            simp only [List.cons.injEq, hd.1, hd.2, false_and, imp_self, implies_true] at h ⊢
            exact ih h
    case isFalse hdash =>
      rw [if_neg hdash]
      split at h
      · cases h
      · rename_i flag hflag
        split at h
        case isTrue => cases h
        case isFalse hnew =>
          rw [if_neg hnew]
          exact ih h

theorem parseName_append (behind : List Char) {name rs cs rest : List Char}
    (h : parseName name cs = some (rs, rest)) :
    parseName name (cs ++ behind) = some (rs, rest ++ behind) := by
  induction cs generalizing name with
  | nil => cases h
  | cons c cs ih =>
    rw [List.cons_append]
    unfold parseName at h ⊢
    split at h
    case isTrue hclose =>
      rw [if_pos hclose]
      split at h
      case isTrue => cases h
      case isFalse hne =>
        cases h
        exact if_neg hne
    case isFalse hclose =>
      rw [if_neg hclose]
      split at h
      case isTrue hchar =>
        rw [if_pos hchar]
        exact ih h
      case isFalse => cases h

/-- What stands behind a question mark in an opening parenthesis, if it changes flags only. -/
def openingFlags (cs : List Char) : Option (Opening × List Char) := do
  let ((change, grouping), rest) ← parseFlags false [] cs
  if grouping then some (.plain change, rest)
  else if change.isEmpty then none
  else some (.flags change, rest)

theorem openingFlags_append (behind : List Char) {cs rest : List Char} {o : Opening}
    (h : openingFlags cs = some (o, rest)) :
    openingFlags (cs ++ behind) = some (o, rest ++ behind) := by
  unfold openingFlags at h ⊢
  obtain ⟨⟨⟨change, grouping⟩, after⟩, hflags, h⟩ := Option.bind_eq_some_iff.mp h
  rw [parseFlags_append behind hflags]
  simp only [Option.bind_eq_bind, Option.bind_some] at h ⊢
  split at h
  · next hgrouping =>
    cases h
    exact if_pos hgrouping
  next hgrouping =>
  rw [if_neg hgrouping]
  split at h
  · cases h
  · next hchange =>
    cases h
    exact if_neg hchange

theorem parseOpening_flags {cs rest : List Char} (h : skipBlank spaced cs = '?' :: rest)
    (hlook : ∀ inner, rest ≠ '=' :: inner) (hnot : ∀ inner, rest ≠ '!' :: inner)
    (hold : ∀ inner, rest ≠ 'P' :: '<' :: inner) (hnamed : ∀ inner, rest ≠ '<' :: inner) :
    parseOpening spaced cs = openingFlags rest := by
  rw [parseOpening, h]
  split
  · next h' =>
    cases h'
    exact absurd rfl (hlook _)
  · next h' =>
    cases h'
    exact absurd rfl (hnot _)
  iterate 2
    · next h' =>
      cases h'
      exact absurd rfl (hnamed _)
  · next h' =>
    cases h'
    exact absurd rfl (hold _)
  · next h' =>
    cases h'
    exact absurd rfl (hnamed _)
  · next h' =>
    cases h'
    rfl
  · next h' => exact (h' rest rfl).elim

theorem Closing.parseOpening (hb : Closing behind) {cs rest : List Char} {o : Opening}
    (h : parseOpening spaced cs = some (o, rest)) :
    ∃ rest', parseOpening spaced (cs ++ behind) = some (o, rest') ∧
      Extends behind rest rest' := by
  unfold Pattern.parseOpening at h
  split at h
  iterate 4
    · cases h
  · rename_i inner heq
    obtain ⟨⟨name, after⟩, hname, h⟩ := Option.map_eq_some_iff.mp h
    cases h
    rw [Pattern.parseOpening, hb.skipBlank_cons heq]
    simp only [List.cons_append, parseName_append behind hname]
    exact ⟨_, rfl, .append after⟩
  · rename_i inner hequal hexclaim heq
    obtain ⟨⟨name, after⟩, hname, h⟩ := Option.map_eq_some_iff.mp h
    cases h
    rw [Pattern.parseOpening, hb.skipBlank_cons heq]
    cases inner with
    | nil => cases hname
    | cons d inner =>
      have hd : d ≠ '=' ∧ d ≠ '!' :=
        ⟨fun h => hequal inner (h ▸ rfl), fun h => hexclaim inner (h ▸ rfl)⟩
      have hname' := parseName_append behind hname
      rw [List.cons_append] at hname' ⊢
      simp only [List.cons.injEq, hd.1, hd.2, false_and, imp_self, implies_true,
        List.cons_append, hname', Option.map_some]
      exact ⟨_, rfl, .append _⟩
  · rename_i inner hlook hnot hbehind hnotBehind hold hnamed heq
    have hflags : openingFlags inner = some (o, rest) := h
    refine ⟨_, ?_, .append rest⟩
    cases inner with
    | nil => cases hflags
    | cons d inner =>
      have hfirst : ∀ {c : Char}, d ≠ c → ∀ after, d :: inner ++ behind ≠ c :: after :=
        fun hc after h' => hc (List.cons.inj h').1
      have hletter : d ≠ 'P' := by
        rintro rfl
        have hnone : parseFlags false [] ('P' :: inner) = none := by
          unfold parseFlags
          rfl
        rw [openingFlags, hnone] at hflags
        cases hflags
      rw [parseOpening_flags (hb.skipBlank_cons heq) (hfirst fun h => hlook inner (h ▸ rfl))
        (hfirst fun h => hnot inner (h ▸ rfl)) (fun after => hfirst hletter _)
        (hfirst fun h => hnamed inner (h ▸ rfl))]
      exact openingFlags_append behind hflags
  · rename_i hquestion
    cases h
    have hskip := hb.skipBlank spaced cs
    rw [Pattern.parseOpening]
    cases heq : Pattern.skipBlank spaced cs with
    | nil =>
      rw [heq] at hskip
      rcases hskip with hskip | ⟨-, hskip⟩
      · rw [hskip]
        obtain ⟨after, rfl | rfl⟩ := hb.head <;> exact ⟨_, rfl, .inl rfl⟩
      · rw [hskip]
        exact ⟨_, rfl, .inr ⟨rfl, rfl⟩⟩
    | cons c inner =>
      have hc : c ≠ '?' := fun h => hquestion inner (heq.trans (h ▸ rfl))
      rw [hb.skipBlank_cons heq]
      simp only [List.cons.injEq, hc, false_and, imp_self, implies_true]
      exact ⟨_, rfl, .append (c :: inner)⟩

theorem Closing.dropReluctance (hb : Closing behind) {cs longer : List Char}
    (h : Extends behind cs longer) :
    Extends behind (dropReluctance cs) (dropReluctance longer) := by
  rcases h with rfl | ⟨rfl, rfl⟩
  · cases cs with
    | nil => obtain ⟨after, rfl | rfl⟩ := hb.head <;> exact .inl rfl
    | cons c cs =>
      by_cases hc : c = '?'
      · subst hc
        exact .append cs
      · have hkeep : ∀ ds, Pattern.dropReluctance (c :: ds) = c :: ds := fun ds => by
          unfold Pattern.dropReluctance
          split
          · rename_i h'
            cases h'
            exact absurd rfl hc
          · rfl
        rw [List.cons_append, hkeep, hkeep]
        exact .append (c :: cs)
  · exact .inr ⟨rfl, rfl⟩

theorem Closing.parseLimits (hb : Closing behind) {cs rest : List Char}
    {counts : Nat × Option Nat} (h : parseLimits spaced cs = some (counts, rest)) :
    ∃ rest', parseLimits spaced (cs ++ behind) = some (counts, rest') ∧
      Extends behind rest rest' := by
  unfold Pattern.parseLimits at h ⊢
  split at h
  · rename_i least after hfirst
    obtain ⟨after', hfirst', hafter⟩ := hb.parseCount (hb.skipBlank spaced cs) hfirst
    rw [hfirst', hafter.cons]
    simp only
    split at h
    · rename_i inner heq
      cases h
      rw [hb.skipBlank_cons heq]
      exact ⟨_, rfl, .append _⟩
    · rename_i hbrace
      obtain ⟨⟨most, end'⟩, hmost, h⟩ := Option.map_eq_some_iff.mp h
      cases h
      cases heq : Pattern.skipBlank spaced after with
      | nil =>
        rw [heq] at hmost
        cases hmost
      | cons c inner =>
        have hc : c ≠ '}' := by
          rintro rfl
          exact hbrace inner heq
        rw [heq] at hmost
        obtain ⟨end'', hmost', hend⟩ := hb.parseCount (.append _) hmost
        rw [hb.skipBlank_cons heq]
        simp only [List.cons.injEq, hc, false_and, imp_self, implies_true]
        rw [List.cons_append] at hmost'
        exact ⟨_, by rw [hmost']; rfl, hend⟩
  · rename_i least after hcomma hfirst
    cases h
    obtain ⟨after', hfirst', hafter⟩ := hb.parseCount (hb.skipBlank spaced cs) hfirst
    refine ⟨after', ?_, hafter⟩
    rw [hfirst']
    -- no comma comes up behind the text
    have hcomma' : ∀ inner, after' ≠ ',' :: inner := by
      rintro inner rfl
      rcases hafter with h' | ⟨-, h'⟩
      · cases rest with
        | nil => obtain ⟨end', rfl | rfl⟩ := hb.head <;> cases h'
        | cons c rest =>
          cases h'
          exact hcomma rest rfl
      · cases h'
    split
    · rename_i h'
      cases h'
      exact absurd rfl (hcomma' _)
    · rename_i h'
      cases h'
      rfl
    · rename_i h'
      cases h'
  · cases h

theorem Closing.parseCounts (hb : Closing behind) {cs rest : List Char}
    {counts : Nat × Option Nat} (h : parseCounts spaced cs = some (counts, rest)) :
    ∃ rest', parseCounts spaced (cs ++ behind) = some (counts, rest') ∧
      Extends behind rest rest' := by
  unfold Pattern.parseCounts at h ⊢
  split at h
  · rename_i counts' after hlimits
    obtain ⟨after', hlimits', hafter⟩ := hb.parseLimits hlimits
    rw [hlimits', hafter.cons]
    simp only
    split at h
    case isTrue hordered =>
      cases h
      rw [if_pos hordered]
      exact ⟨_, rfl, hb.dropReluctance (hb.skipBlank spaced after)⟩
    case isFalse => cases h
  · cases h

end HttpContract.Pattern
