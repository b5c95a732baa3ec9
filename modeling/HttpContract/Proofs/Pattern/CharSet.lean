import HttpContract.CharSet

/-!
# CharSet — sets hold characters

A set is `Proper` if its ranges are separate and hold nothing but characters. Every operation on
sets keeps this (`Proper.union`, `Proper.complement` and the lemmas beside them), so the character
at a place below the size of a set exists and is in the set (`Proper.nth`).
-/

namespace HttpContract

open Unicode (Range within)

theorem Unicode.within_iff {rs : List Range} {n : Nat} :
    within rs n = true ↔ ∃ r ∈ rs, r.1 ≤ n ∧ n ≤ r.2 := by
  simp [within]

theorem Unicode.within_cons {r : Range} {rs : List Range} {n : Nat} :
    within (r :: rs) n = true ↔ (r.1 ≤ n ∧ n ≤ r.2) ∨ within rs n = true := by
  simp [within]

namespace CharSet

open Unicode (within_iff within_cons)

/-! ## Ranges -/

/-- Ascending ranges, none of them empty, with a gap between each and the next. -/
structure Separate (rs : List Range) : Prop where
  ascending : rs.Pairwise fun r t => r.2 + 1 < t.1
  filled : ∀ r ∈ rs, r.1 ≤ r.2

theorem Separate.nil : Separate [] := ⟨.nil, by simp⟩

theorem Separate.cons {r : Range} {rs : List Range} (hr : r.1 ≤ r.2)
    (hbefore : ∀ t ∈ rs, r.2 + 1 < t.1) (h : Separate rs) : Separate (r :: rs) :=
  ⟨List.pairwise_cons.mpr ⟨hbefore, h.ascending⟩, List.forall_mem_cons.mpr ⟨hr, h.filled⟩⟩

theorem Separate.head {r : Range} {rs : List Range} (h : Separate (r :: rs)) : r.1 ≤ r.2 :=
  h.filled r (by simp)

theorem Separate.gap {r : Range} {rs : List Range} (h : Separate (r :: rs)) :
    ∀ t ∈ rs, r.2 + 1 < t.1 := (List.pairwise_cons.mp h.ascending).1

theorem Separate.tail {r : Range} {rs : List Range} (h : Separate (r :: rs)) : Separate rs :=
  ⟨(List.pairwise_cons.mp h.ascending).2, fun t ht => h.filled t (by simp [ht])⟩

theorem lt_insertRange {b : Nat} {r : Range} {rs : List Range} (hr : b < r.1)
    (hrs : ∀ t ∈ rs, b < t.1) : ∀ t ∈ insertRange r rs, b < t.1 := by
  induction rs generalizing r with
  | nil => simpa [insertRange] using hr
  | cons s rest ih =>
    obtain ⟨hs, hrest⟩ := List.forall_mem_cons.mp hrs
    rw [insertRange]
    split
    · exact List.forall_mem_cons.mpr ⟨hr, hrs⟩
    split
    · exact List.forall_mem_cons.mpr ⟨hs, ih hr hrest⟩
    · exact ih (by simp; omega) hrest

theorem insertRange_separate {r : Range} {rs : List Range} (hr : r.1 ≤ r.2) (h : Separate rs) :
    Separate (insertRange r rs) := by
  induction rs generalizing r with
  | nil => exact .cons hr (by simp) .nil
  | cons s rest ih =>
    have hs := h.head
    rw [insertRange]
    split
    case isTrue hbefore =>
      refine .cons hr (List.forall_mem_cons.mpr ⟨hbefore, fun t ht => ?_⟩) h
      have := h.gap t ht
      omega
    split
    case isTrue _ hbehind => exact .cons hs (lt_insertRange hbehind h.gap) (ih hr h.tail)
    case isFalse => exact ih (by simp; omega) h.tail

theorem within_insertRange {r : Range} {rs : List Range} (hr : r.1 ≤ r.2) (h : Separate rs)
    {n : Nat} : within (insertRange r rs) n = true ↔ (r.1 ≤ n ∧ n ≤ r.2) ∨ within rs n = true := by
  induction rs generalizing r with
  | nil => simp [insertRange, within_cons]
  | cons s rest ih =>
    have hs := h.head
    rw [insertRange]
    split
    · exact within_cons
    split
    · rw [within_cons, ih hr h.tail, within_cons]
      exact or_left_comm
    · -- two ranges that touch cover what the range over both does
      rw [ih (by simp; omega) h.tail, within_cons, ← or_assoc]
      exact or_congr_left (by simp; omega)

theorem le_gapsFrom {start : Nat} {rs : List Range} (h : Separate rs) :
    ∀ t ∈ gapsFrom start rs, start ≤ t.1 := by
  induction rs generalizing start with
  | nil =>
    rw [gapsFrom]
    split <;> simp
  | cons r rest ih =>
    have hr := h.head
    rw [gapsFrom]
    split
    · refine List.forall_mem_cons.mpr ⟨Nat.le_refl _, fun t ht => ?_⟩
      have := ih h.tail t ht
      omega
    · intro t ht
      have := ih h.tail t ht
      omega

theorem gapsFrom_separate {start : Nat} {rs : List Range} (h : Separate rs) :
    Separate (gapsFrom start rs) := by
  induction rs generalizing start with
  | nil =>
    rw [gapsFrom]
    split
    case isTrue hstart => exact .cons hstart (by simp) .nil
    case isFalse => exact .nil
  | cons r rest ih =>
    have hr := h.head
    rw [gapsFrom]
    split
    case isTrue hstart =>
      refine .cons (by simp; omega) (fun t ht => ?_) (ih h.tail)
      have := le_gapsFrom h.tail t ht
      simp
      omega
    case isFalse => exact ih h.tail

/-- What lies in a gap lies in none of the ranges. -/
theorem within_gapsFrom {start : Nat} {rs : List Range} (h : Separate rs) {n : Nat}
    (hn : within (gapsFrom start rs) n = true) : start ≤ n ∧ within rs n = false := by
  have hstart : start ≤ n := by
    obtain ⟨t, ht, hle, -⟩ := within_iff.mp hn
    exact Nat.le_trans (le_gapsFrom h t ht) hle
  refine ⟨hstart, ?_⟩
  induction rs generalizing start with
  | nil => rfl
  | cons r rest ih =>
    have hr := h.head
    rw [Bool.eq_false_iff, Ne, within_cons, not_or]
    rw [gapsFrom] at hn
    split at hn
    case isTrue =>
      rcases within_cons.mp hn with hgap | hn
      · -- the gap before a range is not reached by the ranges behind it
        simp only at hgap
        refine ⟨by omega, fun hrest => ?_⟩
        obtain ⟨t, ht, hle, -⟩ := within_iff.mp hrest
        have := h.gap t ht
        omega
      · obtain ⟨t, ht, hle, -⟩ := within_iff.mp hn
        have := le_gapsFrom h.tail t ht
        exact ⟨by omega, by simpa using ih h.tail hn (by omega)⟩
    case isFalse =>
      obtain ⟨t, ht, hle, -⟩ := within_iff.mp hn
      have := le_gapsFrom h.tail t ht
      exact ⟨by omega, by simpa using ih h.tail hn (by omega)⟩

theorem gapsFrom_le {start : Nat} {rs : List Range} (h : ∀ r ∈ rs, r.1 ≤ 0x10ffff) {n : Nat}
    (hn : within (gapsFrom start rs) n = true) : n ≤ 0x10ffff := by
  induction rs generalizing start with
  | nil =>
    rw [gapsFrom] at hn
    split at hn <;> simp [within] at hn
    exact hn.2
  | cons r rest ih =>
    simp only [List.mem_cons, forall_eq_or_imp] at h
    rw [gapsFrom] at hn
    split at hn
    · rcases within_cons.mp hn with hgap | hn
      · simp only at hgap
        omega
      · exact ih h.2 hn
    · exact ih h.2 hn

/-! ## Sets of characters -/

/-- A range that is not empty and holds only characters. -/
def IsCharRange (r : Range) : Prop := r.1 ≤ r.2 ∧ (r.2 < 0xd800 ∨ 0xdfff < r.1 ∧ r.2 < 0x110000)

instance (r : Range) : Decidable (IsCharRange r) := by
  unfold IsCharRange
  infer_instance

theorem IsCharRange.valid {r : Range} (h : IsCharRange r) {n : Nat} (hlo : r.1 ≤ n)
    (hhi : n ≤ r.2) : n.isValidChar := by
  unfold IsCharRange at h
  unfold Nat.isValidChar
  omega

theorem isCharRange_char (c : Char) : IsCharRange (c.toNat, c.toNat) := by
  have hc : c.toNat.isValidChar := c.valid
  unfold Nat.isValidChar at hc
  exact ⟨Nat.le_refl _, by simpa using hc⟩

/-- A set whose ranges are separate and hold only characters. -/
structure Proper (s : CharSet) : Prop where
  separate : Separate s.ranges
  chars : ∀ n, s.has n = true → n.isValidChar

theorem Proper.empty : Proper empty := ⟨.nil, by simp [CharSet.empty, has, within]⟩

theorem Proper.insert {s : CharSet} {r : Range} (h : Proper s) (hr : IsCharRange r) :
    Proper (s.insert r) where
  separate := insertRange_separate hr.1 h.separate
  chars n hn := by
    rcases (within_insertRange hr.1 h.separate).mp hn with hn | hn
    · exact hr.valid hn.1 hn.2
    · exact h.chars n hn

theorem Proper.insertAll {s : CharSet} {rs : List Range} (h : Proper s)
    (hrs : ∀ r ∈ rs, IsCharRange r) : Proper (rs.foldr CharSet.insert s) := by
  induction rs with
  | nil => exact h
  | cons r rest ih =>
    simp only [List.mem_cons, forall_eq_or_imp] at hrs
    exact (ih hrs.2).insert hrs.1

theorem Proper.ofRanges {rs : List Range} (hrs : ∀ r ∈ rs, IsCharRange r) :
    Proper (ofRanges rs) := Proper.empty.insertAll hrs

theorem Proper.ofLists {lists : List (List Range)} (h : ∀ rs ∈ lists, ∀ r ∈ rs, IsCharRange r) :
    Proper (ofLists lists) := by
  induction lists with
  | nil => exact .empty
  | cons rs rest ih =>
    simp only [List.mem_cons, forall_eq_or_imp] at h
    exact (ih h.2).insertAll h.1

theorem Proper.single (c : Char) : Proper (single c) where
  separate := .cons (Nat.le_refl _) (by simp) .nil
  chars n hn := by
    obtain ⟨r, hr, hlo, hhi⟩ := within_iff.mp hn
    obtain rfl := List.mem_singleton.mp hr
    exact (isCharRange_char c).valid hlo hhi

theorem Proper.between (first last : Char) : Proper (between first last) where
  separate := by
    unfold CharSet.between
    refine ⟨List.Pairwise.filter _ ?_, ?_⟩
    · simp
      omega
    · simp
  chars n hn := by
    have hlast : last.toNat.isValidChar := last.valid
    obtain ⟨r, hr, hlo, hhi⟩ := within_iff.mp hn
    simp only [CharSet.between, List.mem_filter, List.mem_cons, List.not_mem_nil, or_false] at hr
    unfold Nat.isValidChar at *
    rcases hr.1 with rfl | rfl <;> simp only at hlo hhi <;> omega

/-- The ranges of a set are ranges of characters. -/
theorem Proper.isCharRange {s : CharSet} (h : Proper s) {r : Range} (hr : r ∈ s.ranges) :
    IsCharRange r := by
  have hle := h.separate.filled r hr
  have hchar : ∀ n, r.1 ≤ n → n ≤ r.2 → n.isValidChar := fun n hlo hhi =>
    h.chars n (within_iff.mpr ⟨r, hr, hlo, hhi⟩)
  have hlo := hchar r.1 (Nat.le_refl _) hle
  have hhi := hchar r.2 hle (Nat.le_refl _)
  -- a range around the surrogates would hold the first of them
  have hmid := hchar 0xd800
  unfold Nat.isValidChar at *
  exact ⟨hle, by omega⟩

theorem Proper.union {s t : CharSet} (hs : Proper s) (ht : Proper t) : Proper (s.union t) :=
  ht.insertAll fun _ hr => hs.isCharRange hr

theorem Proper.complement {s : CharSet} (h : Proper s) : Proper s.complement := by
  have hsurrogates : (0xd800, 0xdfff).1 ≤ (0xd800, 0xdfff).2 := by decide
  have hseparate := insertRange_separate hsurrogates h.separate
  refine ⟨gapsFrom_separate hseparate, fun n hn => ?_⟩
  have hout := (within_gapsFrom hseparate hn).2
  rw [Bool.eq_false_iff, Ne] at hout
  have hle : n ≤ 0x10ffff := by
    refine gapsFrom_le (fun r hr => ?_) hn
    have hin : within (insertRange (0xd800, 0xdfff) s.ranges) r.1 = true :=
      within_iff.mpr ⟨r, hr, Nat.le_refl _, hseparate.filled r hr⟩
    rcases (within_insertRange hsurrogates h.separate).mp hin with hin | hin
    · simp only at hin
      omega
    · have := h.chars _ hin
      unfold Nat.isValidChar at this
      omega
  have hnot : ¬ (0xd800 ≤ n ∧ n ≤ 0xdfff) := fun hsurrogate =>
    hout ((within_insertRange hsurrogates h.separate).mpr (.inl hsurrogate))
  unfold Nat.isValidChar
  omega

theorem Proper.inter {s t : CharSet} (hs : Proper s) (ht : Proper t) : Proper (s.inter t) :=
  (hs.complement.union ht.complement).complement

theorem Proper.diff {s t : CharSet} (hs : Proper s) (ht : Proper t) : Proper (s.diff t) :=
  hs.inter ht.complement

theorem Proper.symmDiff {s t : CharSet} (hs : Proper s) (ht : Proper t) :
    Proper (s.symmDiff t) := (hs.diff ht).union (ht.diff hs)

/-! ## Case -/

/-- What each step of a fold keeps, the fold keeps. -/
theorem foldl_proper {α : Type} {f : CharSet → α → CharSet} {xs : List α} {s : CharSet}
    (h : Proper s) (hstep : ∀ x ∈ xs, ∀ t, Proper t → Proper (f t x)) : Proper (xs.foldl f s) := by
  induction xs generalizing s with
  | nil => exact h
  | cons x rest ih =>
    exact ih (hstep x (by simp) s h) fun y hy => hstep y (by simp [hy])

/-- The tables of case folding, of words and of digits hold only characters. -/
theorem tables_isCharRange :
    (∀ p ∈ Unicode.CaseFolding.pairs, IsCharRange (p.1, p.1) ∧ IsCharRange (p.2, p.2))
    ∧ (∀ rs ∈ Unicode.word, ∀ r ∈ rs, IsCharRange r)
    ∧ ∀ r ∈ Unicode.Category.decimalNumber, IsCharRange r := by
  decide +kernel

theorem Proper.foldCase {s : CharSet} (h : Proper s) : Proper s.foldCase := by
  refine foldl_proper (foldl_proper h fun p hp t ht => ?_) fun p hp t ht => ?_
  all_goals
    obtain ⟨hfrom, hto⟩ := tables_isCharRange.1 p hp
    split
  · exact ht.insert hto
  · exact ht
  · exact ht.insert hfrom
  · exact ht

theorem Proper.foldAsciiCase {s : CharSet} (h : Proper s) : Proper s.foldAsciiCase := by
  refine foldl_proper h fun i hi t ht => ?_
  have hi : i < 26 := List.mem_range.mp hi
  split
  · refine (ht.insert ?_).insert ?_ <;> exact ⟨Nat.le_refl _, .inl (by simp; omega)⟩
  · exact ht

/-! ## Named sets -/

theorem Proper.any : Proper any := Proper.empty.complement

theorem Proper.word : Proper word := .ofLists tables_isCharRange.2.1

theorem Proper.digit : Proper digit := .ofRanges tables_isCharRange.2.2

theorem Proper.whiteSpace : Proper whiteSpace := .ofRanges (by decide)

theorem Proper.asciiWord : Proper asciiWord := .ofRanges (by decide)

theorem Proper.asciiDigit : Proper asciiDigit := .ofRanges (by decide)

theorem Proper.asciiWhiteSpace : Proper asciiWhiteSpace := .ofRanges (by decide)

/-! ## Places -/

theorem nthOf_within {rs : List Range} (h : ∀ r ∈ rs, IsCharRange r) {i : Nat}
    (hi : i < rs.foldr (fun r n => (r.2 + 1 - r.1) + n) 0) :
    ∃ c, nthOf rs i = some c ∧ within rs c.toNat = true := by
  induction rs generalizing i with
  | nil => exact absurd hi (Nat.not_lt_zero i)
  | cons r rest ih =>
    simp only [List.mem_cons, forall_eq_or_imp] at h
    rw [List.foldr_cons] at hi
    by_cases hlt : i < r.2 + 1 - r.1
    · have hvalid : (r.1 + i).isValidChar := h.1.valid (by omega) (by omega)
      refine ⟨Char.ofNat (r.1 + i), by simp [nthOf, hlt], within_cons.mpr (.inl ?_)⟩
      have hcode : (Char.ofNat (r.1 + i)).toNat = r.1 + i := by
        rw [Char.ofNat, dif_pos hvalid]
        rfl
      omega
    · have hrest : i - (r.2 + 1 - r.1) < rest.foldr (fun r n => (r.2 + 1 - r.1) + n) 0 := by omega
      obtain ⟨c, hc, hin⟩ := ih h.2 hrest
      exact ⟨c, by simp [nthOf, hlt, hc], within_cons.mpr (.inr hin)⟩

/-- At every place below the size of a set there is a character of the set. -/
theorem Proper.nth {s : CharSet} (h : Proper s) {i : Nat} (hi : i < s.size) :
    ∃ c, s.nth? i = some c ∧ s.contains c = true :=
  nthOf_within (fun _ hr => h.isCharRange hr) hi

end CharSet

end HttpContract
