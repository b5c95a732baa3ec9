import HttpContract.Pattern.Match
import HttpContract.Library.Simple
import HttpContract.Proofs.Pattern.CharSet
import HttpContract.Proofs.Random

/-!
# Pattern — the stretches of a text that a pattern spans

`Spans text p i j` says that the pattern can go from position `i` of a text to position `j`. The
matcher reaches every such `j` from a set of positions that holds `i` (`reaches_advance`), and a
text that is drawn for a pattern is a stretch that the pattern spans, whatever stands around it
(`yields_draw`).
-/

namespace HttpContract.Pattern

/-- Some rounds of a relation between positions. -/
def Rounds (R : Nat → Nat → Prop) : Nat → Nat → Nat → Prop
  | 0, i, j => i = j
  | n + 1, i, k => ∃ j, R i j ∧ Rounds R n j k

/-- Whether a pattern can go from one position of a text to another. -/
def Spans (text : List Char) : Pattern → Nat → Nat → Prop
  | empty, i, j => i = j
  | oneOf s, i, j => j = i + 1 ∧ ∃ c, text[i]? = some c ∧ s.contains c = true
  | assert a, i, j => i = j ∧ ∃ context, (neighbours text)[i]? = some context ∧ a.holds context
  | seq p q, i, k => ∃ j, Spans text p i j ∧ Spans text q j k
  | alt p q, i, j => Spans text p i j ∨ Spans text q i j
  | .repeat p least most, i, j =>
    ∃ extra, (∀ m ∈ most, extra ≤ m - least) ∧ Rounds (Spans text p) (least + extra) i j

variable {text : List Char} {R : Nat → Nat → Prop}

theorem Rounds.split {m n i k : Nat} (h : Rounds R (m + n) i k) :
    ∃ j, Rounds R m i j ∧ Rounds R n j k := by
  induction m generalizing i with
  | zero => exact ⟨i, rfl, by rwa [Nat.zero_add] at h⟩
  | succ m ih =>
    rw [Nat.succ_add] at h
    obtain ⟨i', hfirst, h⟩ := h
    obtain ⟨j, hm, hn⟩ := ih h
    exact ⟨j, ⟨i', hfirst, hm⟩, hn⟩

/-! ## Sequences and choices -/

theorem spans_seqs {p : Pattern} {ps : List Pattern} {i k : Nat} :
    Spans text (seqs (p :: ps)) i k ↔ ∃ j, Spans text p i j ∧ Spans text (seqs ps) j k := by
  cases ps with
  | nil => simp [seqs, Spans]
  | cons q rest => rfl

theorem spans_seqs_append {ps qs : List Pattern} {i k : Nat} :
    Spans text (seqs (ps ++ qs)) i k
      ↔ ∃ j, Spans text (seqs ps) i j ∧ Spans text (seqs qs) j k := by
  induction ps generalizing i with
  | nil => simp [seqs, Spans]
  | cons p ps ih =>
    simp only [List.cons_append, spans_seqs, ih]
    constructor
    · rintro ⟨j, hp, l, hps, hqs⟩
      exact ⟨l, ⟨j, hp, hps⟩, hqs⟩
    · rintro ⟨l, ⟨j, hp, hps⟩, hqs⟩
      exact ⟨j, hp, l, hps, hqs⟩

theorem spans_alts {ps : List Pattern} {i j : Nat} :
    Spans text (alts ps) i j ↔ ∃ p ∈ ps, Spans text p i j := by
  induction ps with
  | nil => simp [alts, Spans, CharSet.empty, CharSet.contains, CharSet.has, Unicode.within]
  | cons p rest ih =>
    cases rest with
    | nil => simp [alts]
    | cons q rest =>
      rw [show Spans text (alts (p :: q :: rest)) i j
        ↔ Spans text p i j ∨ Spans text (alts (q :: rest)) i j from Iff.rfl, ih]
      simp only [List.mem_cons, or_and_right, exists_or, exists_eq_left]

/-! ## Positions -/

/-- Whether a set of positions holds a position. -/
def Reaches (s : Positions) (i : Nat) : Prop := s[i]? = some true

theorem Reaches.lt {s : Positions} {i : Nat} (h : Reaches s i) : i < s.length :=
  (List.getElem?_eq_some_iff.mp h).1

theorem Reaches.any {s : Positions} {i : Nat} (h : Reaches s i) : s.any id = true :=
  List.any_eq_true.mpr ⟨true, List.mem_of_getElem? h, rfl⟩

theorem reaches_join {s t : Positions} (hlen : s.length = t.length) {i : Nat} :
    Reaches (join s t) i ↔ Reaches s i ∨ Reaches t i := by
  unfold Reaches join
  rw [List.getElem?_zipWith]
  by_cases hi : i < s.length
  · simp [hi, hlen ▸ hi]
  · simp [List.getElem?_eq_none (Nat.le_of_not_lt hi),
      List.getElem?_eq_none (Nat.le_of_not_lt (hlen ▸ hi))]

/-- A computation of positions that follows a relation between them. -/
structure Follows (f : Positions → Positions) (R : Nat → Nat → Prop) (len : Nat) : Prop where
  length : ∀ s, s.length = len → (f s).length = len
  reaches : ∀ s i j, s.length = len → R i j → Reaches s i → Reaches (f s) j

variable {f : Positions → Positions} {len : Nat}

theorem length_join {s t : Positions} (hs : s.length = len) (ht : t.length = len) :
    (join s t).length = len := by
  rw [join, List.length_zipWith, hs, ht, Nat.min_self]

theorem Follows.times (h : Follows f R len) (n : Nat) : Follows (times f n) (Rounds R n) len where
  length s hs := by
    induction n generalizing s with
    | zero => exact hs
    | succ n ih =>
      rw [Pattern.times]
      split
      · exact ih (f s) (h.length s hs)
      · exact hs
  reaches s i j hs hR hi := by
    induction n generalizing s i with
    | zero => exact (show i = j from hR) ▸ hi
    | succ n ih =>
      obtain ⟨l, hfirst, hrest⟩ := hR
      rw [Pattern.times, if_pos hi.any]
      exact ih (f s) l (h.length s hs) hrest (h.reaches s i l hs hfirst hi)

/-- A set of positions that the relation does not leave. -/
theorem Follows.closed (h : Follows f R len) {s : Positions} (hs : s.length = len)
    (hstable : join s (f s) = s) {n i j : Nat} (hR : Rounds R n i j) (hi : Reaches s i) :
    Reaches s j := by
  induction n generalizing i with
  | zero => exact (show i = j from hR) ▸ hi
  | succ n ih =>
    obtain ⟨l, hfirst, hrest⟩ := hR
    refine ih hrest ?_
    rw [← hstable, reaches_join (hs.trans (h.length s hs).symm)]
    exact .inr (h.reaches s i l hs hfirst hi)

theorem length_atMost (h : Follows f R len) (n : Nat) (s : Positions) (hs : s.length = len) :
    (atMost f n s).length = len := by
  induction n generalizing s with
  | zero => exact hs
  | succ n ih =>
    simp only [atMost]
    split
    · exact hs
    · exact ih _ (length_join hs (h.length s hs))

theorem Follows.atMost (h : Follows f R len) {n r i j : Nat} (hr : r ≤ n) {s : Positions}
    (hs : s.length = len) (hR : Rounds R r i j) (hi : Reaches s i) :
    Reaches (atMost f n s) j := by
  induction n generalizing s i r with
  | zero =>
    obtain rfl := Nat.le_zero.mp hr
    exact (show i = j from hR) ▸ hi
  | succ n ih =>
    have hlen := hs.trans (h.length s hs).symm
    simp only [Pattern.atMost]
    split
    case isTrue hstable => exact h.closed hs (by simpa using hstable) hR hi
    case isFalse =>
      have hnext := length_join hs (h.length s hs)
      cases r with
      | zero => exact ih (Nat.zero_le n) hnext hR ((reaches_join hlen).mpr (.inl hi))
      | succ r =>
        obtain ⟨l, hfirst, hrest⟩ := hR
        exact ih (Nat.le_of_succ_le_succ hr) hnext hrest
          ((reaches_join hlen).mpr (.inr (h.reaches s i l hs hfirst hi)))

/-! ## Repetition without a bound -/

theorem count_join_le {s t : Positions} (hlen : s.length = t.length) :
    (join s t).count false ≤ s.count false ∧
      ((join s t).count false = s.count false → join s t = s) := by
  induction s generalizing t with
  | nil => simp [join]
  | cons a s ih =>
    cases t with
    | nil => cases hlen
    | cons b t =>
      obtain ⟨hle, heq⟩ := ih (Nat.succ.inj hlen)
      unfold join at hle heq ⊢
      cases a <;> cases b <;> simp_all
      omega

/-- As many rounds as there are positions left to reach are enough for any number of them. -/
theorem Follows.unbounded (h : Follows f R len) {n r i j : Nat} {s : Positions}
    (hs : s.length = len) (hn : s.count false < n) (hR : Rounds R r i j) (hi : Reaches s i) :
    Reaches (Pattern.atMost f n s) j := by
  induction n generalizing s i with
  | zero => exact absurd hn (Nat.not_lt_zero _)
  | succ n ih =>
    have hlen := hs.trans (h.length s hs).symm
    obtain ⟨hle, heq⟩ := count_join_le hlen
    simp only [Pattern.atMost]
    split
    case isTrue hstable => exact h.closed hs (by simpa using hstable) hR hi
    case isFalse hgrown =>
      have hless : (join s (f s)).count false ≠ s.count false := fun hsame =>
        hgrown (by simpa using heq hsame)
      exact ih (length_join hs (h.length s hs)) (by omega) hR ((reaches_join hlen).mpr (.inl hi))

theorem count_false_lt {s : Positions} {i : Nat} (h : Reaches s i) : s.count false < s.length := by
  refine Nat.lt_of_le_of_ne List.count_le_length fun hall => ?_
  rw [List.count_eq_length] at hall
  exact absurd (hall true (List.mem_of_getElem? h)) (by decide)

/-! ## The matcher -/

theorem length_neighbours : (neighbours text).length = text.length + 1 := by
  simp [neighbours]

/-- The matcher reaches every position that the pattern can go to. -/
theorem follows_advance (p : Pattern) :
    Follows (p.advance text) (Spans text p) (text.length + 1) := by
  induction p with
  | empty => exact ⟨fun s hs => hs, fun s i j _ hR hi => (show i = j from hR) ▸ hi⟩
  | oneOf set =>
    refine ⟨fun s hs => by simp [advance, step, hs], fun s i j hs hR hi => ?_⟩
    obtain ⟨rfl, c, hc, hset⟩ := hR
    simp only [Reaches] at hi
    simp [Reaches, advance, step, List.getElem?_zipWith, hi, hc, hset]
  | assert a =>
    refine ⟨fun s hs => by simp [advance, hs, length_neighbours], fun s i j hs hR hi => ?_⟩
    obtain ⟨rfl, context, hcontext, ha⟩ := hR
    simp only [Reaches] at hi
    simp [Reaches, advance, List.getElem?_zipWith, hi, hcontext, ha]
  | seq p q ihp ihq =>
    refine ⟨fun s hs => ihq.length _ (ihp.length s hs), fun s i k hs hR hi => ?_⟩
    obtain ⟨j, hp, hq⟩ := hR
    exact ihq.reaches _ j k (ihp.length s hs) hq (ihp.reaches s i j hs hp hi)
  | alt p q ihp ihq =>
    refine ⟨fun s hs => length_join (ihp.length s hs) (ihq.length s hs), fun s i j hs hR hi => ?_⟩
    rw [advance, reaches_join ((ihp.length s hs).trans (ihq.length s hs).symm)]
    exact hR.imp (ihp.reaches s i j hs · hi) (ihq.reaches s i j hs · hi)
  | «repeat» p least most ih =>
    have hrequired := ih.times least
    refine ⟨fun s hs => ?_, fun s i k hs hR hi => ?_⟩
    · cases most <;> exact length_atMost ih _ _ (hrequired.length s hs)
    · obtain ⟨extra, hextra, hR⟩ := hR
      obtain ⟨j, hleast, hmore⟩ := hR.split
      have hlen := hrequired.length s hs
      have hj := hrequired.reaches s i j hs hleast hi
      cases most with
      | none =>
        have hcount := count_false_lt hj
        exact ih.unbounded hlen (by omega) hmore hj
      | some m => exact ih.atMost (hextra m rfl) hlen hmore hj

/-- A pattern matches a text of which it spans a stretch. -/
theorem Spans.isMatch {p : Pattern} {i j : Nat} (hi : i ≤ text.length)
    (h : Spans text p i j) : p.isMatch text = true := by
  refine ((follows_advance p).reaches _ i j (by simp) h ?_).any
  simp only [Reaches, List.getElem?_replicate]
  simp
  omega

/-! ## Drawn texts -/

/-- A pattern whose sets hold only characters. -/
def Proper : Pattern → Prop
  | empty => True
  | oneOf s => s.Proper
  | assert _ => True
  | seq p q => p.Proper ∧ q.Proper
  | alt p q => p.Proper ∧ q.Proper
  | .repeat p _ _ => p.Proper

/-- A pattern spans a text, whatever stands around the text. -/
def SpansAlone (p : Pattern) (cs : List Char) : Prop :=
  ∀ before behind, Spans (before ++ cs ++ behind) p before.length (before.length + cs.length)

theorem SpansAlone.rounds {p : Pattern} {rounds : List (List Char)}
    (h : ∀ cs ∈ rounds, p.SpansAlone cs) (before behind : List Char) :
    Rounds (Spans (before ++ rounds.flatten ++ behind) p) rounds.length before.length
      (before.length + rounds.flatten.length) := by
  induction rounds generalizing before with
  | nil => rfl
  | cons cs rest ih =>
    obtain ⟨hcs, hrest⟩ := List.forall_mem_cons.mp h
    refine ⟨before.length + cs.length, ?_, ?_⟩
    · have hspan := hcs before (rest.flatten ++ behind)
      rwa [List.append_assoc, ← List.append_assoc cs, ← List.append_assoc] at hspan
    · have hspan := ih hrest (before ++ cs)
      simpa only [List.flatten_cons, List.append_assoc, List.length_append, Nat.add_assoc]
        using hspan

/-- What is drawn for a pattern that can be drawn from is a text that it spans. -/
theorem yields_draw {p : Pattern} (hproper : p.Proper) (hdraw : p.drawable = true)
    (more : Nat) : (p.draw more).Yields p.SpansAlone := by
  induction p with
  | empty => exact .pure fun before behind => rfl
  | oneOf s =>
    have hsize : 0 < s.size := Nat.pos_of_ne_zero (by simpa [drawable] using hdraw)
    refine (Sampler.yields_below hsize).bind fun i hi => .pure fun before behind => ?_
    obtain ⟨c, hc, hin⟩ := CharSet.Proper.nth hproper hi
    rw [hc]
    exact ⟨rfl, c, by simp, hin⟩
  | assert a => cases hdraw
  | seq p q ihp ihq =>
    rw [drawable, Bool.and_eq_true] at hdraw
    refine (ihp hproper.1 hdraw.1).bind fun first hfirst =>
      (ihq hproper.2 hdraw.2).bind fun second hsecond => .pure fun before behind => ?_
    refine ⟨before.length + first.length, ?_, ?_⟩
    · simpa only [List.append_assoc] using hfirst before (second ++ behind)
    · simpa only [List.append_assoc, List.length_append, Nat.add_assoc]
        using hsecond (before ++ first) behind
  | alt p q ihp ihq =>
    rw [drawable, Bool.and_eq_true] at hdraw
    have hany : (Sampler.below (p.branches + q.branches)).Yields fun _ => True := fun _ => trivial
    refine hany.bind fun i _ => ?_
    split
    · exact (ihp hproper.1 hdraw.1).mono fun cs h before behind => .inl (h before behind)
    · exact (ihq hproper.2 hdraw.2).mono fun cs h before behind => .inr (h before behind)
  | «repeat» p least most ih =>
    refine (Sampler.yields_below (Nat.succ_pos _)).bind fun extra hextra =>
      (Sampler.yields_times (ih hproper hdraw) (least + extra)).bind fun rounds hrounds =>
        .pure fun before behind => ⟨extra, fun m hm => ?_, ?_⟩
    · obtain rfl := Option.mem_def.mp hm
      simp only [Option.getD_some] at hextra
      omega
    · rw [← hrounds.1]
      exact SpansAlone.rounds hrounds.2 before behind

end HttpContract.Pattern
