import HttpContract.Pattern.Lower
import HttpContract.Proofs.Pattern.Spans

/-!
# Pattern — what a written pattern is lowered to

The sets of a lowered pattern hold only characters (`Expr.lower_proper`).
-/

namespace HttpContract.Pattern

open CharSet (Proper IsCharRange)

/-! ## Named sets -/

/-- The named tables hold only characters: general categories, writing systems, what is visible or
assigned, and what identifiers have. -/
theorem tables_isCharRange :
    (∀ entry ∈ categories, ∀ rs ∈ entry.2, ∀ r ∈ rs, IsCharRange r)
    ∧ (∀ entry ∈ Unicode.WritingSystem.named, ∀ r ∈ entry.2, IsCharRange r)
    ∧ (∀ rs ∈ Unicode.visible ++ [Unicode.Category.spaceSeparator, Unicode.Category.lineSeparator,
        Unicode.Category.paragraphSeparator], ∀ r ∈ rs, IsCharRange r)
    ∧ (∀ rs ∈ Unicode.visible ++ [Unicode.Category.spaceSeparator, Unicode.Category.lineSeparator,
        Unicode.Category.paragraphSeparator, Unicode.Category.control, Unicode.Category.format,
        Unicode.Category.privateUse], ∀ r ∈ rs, IsCharRange r)
    ∧ (∀ rs ∈ Unicode.letters ++ [Unicode.Category.letterNumber,
        Unicode.Property.otherIdentifierStart], ∀ r ∈ rs, IsCharRange r)
    ∧ (∀ r ∈ Unicode.Property.syntaxLetter, IsCharRange r)
    ∧ ∀ rs ∈ [Unicode.Category.nonspacingMark, Unicode.Category.spacingMark,
        Unicode.Category.decimalNumber, Unicode.Category.connectorPunctuation,
        Unicode.Property.otherIdentifierContinue], ∀ r ∈ rs, IsCharRange r := by
  decide +kernel

theorem assigned_proper : assigned.Proper := .ofLists tables_isCharRange.2.2.2.1

theorem categoryNamed_proper {name : String} {s : CharSet} (h : categoryNamed? name = some s) :
    s.Proper := by
  obtain ⟨hcategories, -, hvisible, -⟩ := tables_isCharRange
  unfold categoryNamed? at h
  split at h
  case h_8 =>
    obtain ⟨entry, hentry, rfl⟩ := Option.map_eq_some_iff.mp h
    exact .ofLists (hcategories entry (List.mem_of_find?_eq_some hentry))
  all_goals obtain rfl := Option.some.inj h
  · exact .any
  · exact assigned_proper
  · exact .ofRanges (by decide)
  · exact assigned_proper.complement
  · exact assigned_proper.complement
  · exact (Proper.ofLists hvisible).complement
  · exact (Proper.ofLists hvisible).complement

theorem writingSystemNamed_proper {name : String} {s : CharSet}
    (h : writingSystemNamed? name = some s) : s.Proper := by
  obtain ⟨rs, hrs, rfl⟩ := Option.map_eq_some_iff.mp h
  obtain ⟨before, behind, heq, -⟩ := List.lookup_eq_some_iff.mp hrs
  exact .ofRanges (tables_isCharRange.2.1 (name, rs) (by simp [heq]))

theorem identifierStart_proper : identifierStart.Proper := by
  obtain ⟨-, -, -, -, hletters, hsyntax, -⟩ := tables_isCharRange
  exact (Proper.ofLists hletters).diff (.ofRanges hsyntax)

theorem identifierContinue_proper : identifierContinue.Proper := by
  obtain ⟨-, -, -, -, -, -, hmarks⟩ := tables_isCharRange
  exact identifierStart_proper.union (.ofLists hmarks)

theorem propertyNamed_proper {name : String} {s : CharSet} (h : propertyNamed? name = some s) :
    s.Proper := by
  unfold propertyNamed? at h
  split at h
  all_goals
    first
    | obtain rfl := Option.some.inj h
    | cases h
  -- in the order of the table, a property and its short names one after another
  iterate 6 exact .ofLists (by decide +kernel)
  iterate 3 exact .whiteSpace
  iterate 2 exact .ofLists (by decide +kernel)
  iterate 7 exact .ofRanges (by decide +kernel)
  · exact .ofLists (by decide +kernel)
  iterate 2 exact identifierStart_proper
  iterate 2 exact identifierContinue_proper
  iterate 2 exact identifierStart_proper.diff (.ofLists (by decide +kernel))
  iterate 2 exact identifierContinue_proper.diff (.ofRanges (by decide +kernel))
  · exact .ofRanges (by decide +kernel)

theorem propertyQuery_proper {query : PropertyQuery} {s : CharSet} (h : query.set? = some s) :
    s.Proper := by
  have byName : ∀ {name}, PropertyQuery.set?.byName name = some s → s.Proper := by
    intro name h
    rw [PropertyQuery.set?.byName] at h
    cases hproperty : propertyNamed? name with
    | some t =>
      obtain rfl : t = s := by simpa [hproperty] using h
      exact propertyNamed_proper hproperty
    | none =>
      cases hcategory : categoryNamed? name with
      | some t =>
        obtain rfl : t = s := by simpa [hproperty, hcategory] using h
        exact categoryNamed_proper hcategory
      | none => exact writingSystemNamed_proper (by simpa [hproperty, hcategory] using h)
  cases query with
  | oneLetter c => exact byName h
  | named name => exact byName h
  | valued property value =>
    simp only [PropertyQuery.set?] at h
    split at h
    · exact categoryNamed_proper h
    · exact categoryNamed_proper h
    · exact writingSystemNamed_proper h
    · exact writingSystemNamed_proper h
    · cases h

/-! ## Sets -/

theorem asciiOnly_proper {s t : CharSet} (hs : s.Proper) (h : asciiOnly? s = some t) :
    t.Proper := by
  rw [asciiOnly?] at h
  split at h
  · exact Option.some.inj h ▸ hs
  · cases h

theorem foldAndNegate_proper {flags : Flags} {negated : Bool} {s t : CharSet} (hs : s.Proper)
    (h : foldAndNegate flags negated s = some t) : t.Proper := by
  have hfolded : (if !flags.caseInsensitive then s
      else if flags.unicode then s.foldCase else s.foldAsciiCase).Proper := by
    split
    · exact hs
    split
    · exact hs.foldCase
    · exact hs.foldAsciiCase
  simp only [foldAndNegate] at h
  generalize (if !flags.caseInsensitive then s
    else if flags.unicode then s.foldCase else s.foldAsciiCase) = folded at hfolded h
  have hresult : (if negated then folded.complement else folded).Proper := by
    split
    · exact hfolded.complement
    · exact hfolded
  split at h
  · exact Option.some.inj h ▸ hresult
  · exact asciiOnly_proper hresult h

theorem shortClass_proper (kind : ShortClass) (unicode : Bool) : (kind.set unicode).Proper := by
  cases kind <;> cases unicode
  · exact .asciiDigit
  · exact .digit
  · exact .asciiWhiteSpace
  · exact .whiteSpace
  · exact .asciiWord
  · exact .word

theorem namedClass_proper {flags : Flags} {negated : Bool} {set : NamedClass} {s : CharSet}
    (h : set.set? flags negated = some s) : s.Proper := by
  cases set with
  | short kind =>
    have hkind := shortClass_proper kind flags.unicode
    have hresult : (if negated then (kind.set flags.unicode).complement
        else kind.set flags.unicode).Proper := by
      split
      · exact hkind.complement
      · exact hkind
    simp only [NamedClass.set?] at h
    split at h
    · exact Option.some.inj h ▸ hresult
    · exact asciiOnly_proper hresult h
  | property query =>
    simp only [NamedClass.set?] at h
    split at h
    · obtain ⟨t, ht, h⟩ := Option.bind_eq_some_iff.mp h
      exact foldAndNegate_proper (propertyQuery_proper ht) h
    · cases h
  | posix kind =>
    refine foldAndNegate_proper (.ofRanges ?_) h
    cases kind <;> decide

theorem classExpr_proper {flags : Flags} {set : ClassExpr} {s : CharSet}
    (h : set.set? flags = some s) : s.Proper := by
  induction set generalizing s with
  | none => exact Option.some.inj h ▸ .empty
  | range first last bytes =>
    simp only [ClassExpr.set?] at h
    split at h
    · exact Option.some.inj h ▸ .between first last
    · exact asciiOnly_proper (.between first last) h
  | named set negated => exact namedClass_proper h
  | union left right ihl ihr =>
    obtain ⟨l, hl, h⟩ := Option.bind_eq_some_iff.mp h
    obtain ⟨r, hr, h⟩ := Option.bind_eq_some_iff.mp h
    exact Option.some.inj h ▸ (ihl hl).union (ihr hr)
  | combine operator left right ihl ihr =>
    obtain ⟨l, hl, h⟩ := Option.bind_eq_some_iff.mp h
    obtain ⟨l', hl', h⟩ := Option.bind_eq_some_iff.mp h
    obtain ⟨r, hr, h⟩ := Option.bind_eq_some_iff.mp h
    obtain ⟨r', hr', h⟩ := Option.bind_eq_some_iff.mp h
    have hleft := foldAndNegate_proper (ihl hl) hl'
    have hright := foldAndNegate_proper (ihr hr) hr'
    obtain rfl := Option.some.inj h
    cases operator
    · exact hleft.inter hright
    · exact hleft.diff hright
    · exact hleft.symmDiff hright
  | bracketed negated body ih =>
    obtain ⟨t, ht, h⟩ := Option.bind_eq_some_iff.mp h
    exact foldAndNegate_proper (ih ht) h

theorem dotSet_proper {flags : Flags} {s : CharSet} (h : dotSet flags = some s) : s.Proper := by
  simp only [dotSet] at h
  split at h
  · cases h
  split at h
  · exact Option.some.inj h ▸ .any
  split at h
  all_goals exact Option.some.inj h ▸ (CharSet.Proper.ofRanges (by decide)).complement

/-! ## Patterns -/

theorem lowerLiteral_proper {flags : Flags} {c : Char} {byte : Bool} {p : Pattern}
    (h : lowerLiteral flags c byte = some p) : p.Proper := by
  simp only [lowerLiteral] at h
  split at h
  · cases h
  split at h
  · exact Option.some.inj h ▸ CharSet.Proper.single c
  split at h
  · exact Option.some.inj h ▸ (CharSet.Proper.single c).foldCase
  · exact Option.some.inj h ▸ (CharSet.Proper.single c).foldAsciiCase

theorem repeated_proper {p : Pattern} (h : p.Proper) (least : Nat) (most : Option Nat) :
    (repeated p least most).Proper := by
  unfold repeated
  split
  · trivial
  split
  · exact h
  · exact h

theorem seqs_proper {ps : List Pattern} (h : ∀ p ∈ ps, p.Proper) : (seqs ps).Proper := by
  induction ps with
  | nil => trivial
  | cons p rest ih =>
    obtain ⟨hp, hrest⟩ := List.forall_mem_cons.mp h
    cases rest with
    | nil => exact hp
    | cons q rest => exact ⟨hp, ih hrest⟩

theorem alts_proper {ps : List Pattern} (h : ∀ p ∈ ps, p.Proper) : (alts ps).Proper := by
  induction ps with
  | nil => exact CharSet.Proper.empty
  | cons p rest ih =>
    obtain ⟨hp, hrest⟩ := List.forall_mem_cons.mp h
    cases rest with
    | nil => exact hp
    | cons q rest => exact ⟨hp, ih hrest⟩

mutual

/-- The sets of a lowered pattern hold only characters. -/
theorem Expr.lower_proper {flags flags' : Flags} : {e : Expr} → {p : Pattern} →
    e.lower flags = some (p, flags') → p.Proper
  | .empty, p, h => by
    cases h
    trivial
  | .flags change, p, h => by
    cases h
    trivial
  | .literal c byte, p, h => by
    obtain ⟨q, hq, h⟩ := Option.map_eq_some_iff.mp h
    cases h
    exact lowerLiteral_proper hq
  | .dot, p, h => by
    obtain ⟨s, hs, h⟩ := Option.map_eq_some_iff.mp h
    cases h
    exact dotSet_proper hs
  | .anchor a, p, h => by
    cases h
    trivial
  | .named set negated, p, h => by
    obtain ⟨s, hs, h⟩ := Option.map_eq_some_iff.mp h
    cases h
    exact namedClass_proper hs
  | .bracketed negated body, p, h => by
    obtain ⟨s, hs, h⟩ := Option.bind_eq_some_iff.mp h
    obtain ⟨t, ht, h⟩ := Option.bind_eq_some_iff.mp h
    cases h
    exact foldAndNegate_proper (classExpr_proper hs) ht
  | .group change body, p, h => by
    obtain ⟨r, hr, h⟩ := Option.map_eq_some_iff.mp h
    cases h
    exact Expr.lower_proper hr
  | .repeat body least most, p, h => by
    obtain ⟨r, hr, h⟩ := Option.map_eq_some_iff.mp h
    cases h
    exact repeated_proper (Expr.lower_proper hr) least most
  | .concat items, p, h => by
    obtain ⟨r, hr, h⟩ := Option.map_eq_some_iff.mp h
    cases h
    exact seqs_proper (Expr.lowerAll_proper hr)
  | .alternation branches, p, h => by
    obtain ⟨r, hr, h⟩ := Option.map_eq_some_iff.mp h
    cases h
    exact alts_proper (Expr.lowerAll_proper hr)

/-- The sets of lowered patterns hold only characters. -/
theorem Expr.lowerAll_proper {flags flags' : Flags} : {es : List Expr} → {ps : List Pattern} →
    Expr.lowerAll flags es = some (ps, flags') → ∀ p ∈ ps, p.Proper
  | [], ps, h => by
    cases h
    simp
  | e :: rest, ps, h => by
    obtain ⟨⟨p, flags₁⟩, hp, h⟩ := Option.bind_eq_some_iff.mp h
    obtain ⟨⟨qs, flags₂⟩, hqs, h⟩ := Option.bind_eq_some_iff.mp h
    cases h
    exact List.forall_mem_cons.mpr ⟨Expr.lower_proper hp, Expr.lowerAll_proper hqs⟩

end

end HttpContract.Pattern
