import HttpContract.Proofs.Json.Numeral
import Mathlib.Data.String.Basic

/-!
# Json — how long values are written

A number is written in at most twenty-five bytes (`size_number`): the shortest decimal of a double
has at most eighteen digits and its first digit stands near the point, whatever its layout. A text
between quotes takes at most six bytes for each of its own (`size_quotedChars`).
-/

namespace HttpContract

open String (utf8Len utf8Len_append utf8Len_cons utf8Len_nil utf8Len_toList)

/-! ## Digits of doubles -/

namespace Binary64

/-- Where `c` digits remain of a number of units that is scaled by `10 ^ k`, the grid that ends `n`
digits behind the first one has numbers of at most `n` digits below it. -/
theorem gridBelow_lt {v c k : Nat} (h : v * 10 ^ k < 10 ^ c * one) (n : Nat) :
    gridBelow v ((c : Int) - k - n) < 10 ^ n := by
  rw [gridBelow]
  simp only [Nat.pow_eq]
  split
  · rename_i hneg
    obtain ⟨w, hw⟩ : ∃ w : Nat, w + c = n + k := ⟨n + k - c, by omega⟩
    have hwidth : (-((c : Int) - k - n)).toNat = w := by omega
    rw [hwidth, Nat.div_lt_iff_lt_mul one_pos]
    apply Nat.lt_of_mul_lt_mul_right (a := 10 ^ k)
    calc v * 10 ^ w * 10 ^ k = 10 ^ w * (v * 10 ^ k) := by ring
      _ < 10 ^ w * (10 ^ c * one) := Nat.mul_lt_mul_of_pos_left h (Nat.pow_pos (by decide))
      _ = 10 ^ n * one * 10 ^ k := by
        rw [← Nat.mul_assoc, ← Nat.pow_add, hw, Nat.pow_add, Nat.mul_right_comm]
  · rename_i hpos
    obtain ⟨p, hp⟩ : ∃ p : Nat, c = n + p + k := ⟨c - k - n, by omega⟩
    have hheight : ((c : Int) - k - n).toNat = p := by omega
    have hstep : 0 < 10 ^ p * one := Nat.mul_pos (Nat.pow_pos (by decide)) one_pos
    rw [hheight, Nat.div_lt_iff_lt_mul hstep]
    apply Nat.lt_of_mul_lt_mul_right (a := 10 ^ k)
    calc v * 10 ^ k < 10 ^ c * one := h
      _ = 10 ^ n * (10 ^ p * one) * 10 ^ k := by
        rw [hp, Nat.pow_add, Nat.pow_add]
        ring

/-- The first digit of a number of units, told by how many digits remain of it when it is scaled. -/
theorem exists_leadingPlace (v : Nat) :
    ∃ c k : Nat, leadingPlace v + 1 = c - k ∧ v * 10 ^ k < 10 ^ c * one := by
  obtain ⟨k, hk⟩ : ∃ k, k = 330 := ⟨_, rfl⟩
  refine ⟨digitCount (v * 10 ^ k / one), k, ?_, ?_⟩
  · rw [leadingPlace, ← hk, Nat.pow_eq]
    omega
  · exact (Nat.div_lt_iff_lt_mul one_pos).mp (lt_pow_digitCount _)

theorem hit?_digits {m v n : Nat} {d : Decimal} (h : hit? m v (leadingPlace v) n = some d) :
    d.digits ≤ 10 ^ n := by
  obtain ⟨c, k, hleading, hscaled⟩ := exists_leadingPlace v
  have hlt := gridBelow_lt hscaled n
  unfold hit? at h
  simp only [hleading] at h
  generalize (c : Int) - k - n = place at h hlt
  have hn := nearerOf_eq v (gridBelow v place) place
  split at h
  · split at h <;> cases h
    · rcases hn with hn | hn <;> simp only [hn] <;> omega
    · exact hlt.le
  · split at h <;> cases h
    exact hlt

theorem Decimal.trim_digits (d : Decimal) (fuel : Nat) : (d.trim fuel).digits ≤ d.digits := by
  induction fuel generalizing d with
  | zero => exact le_rfl
  | succ fuel ih =>
    rw [Decimal.trim]
    split
    · exact (ih _).trans (Nat.div_le_self ..)
    · exact le_rfl

/-- What is written is zero or was found with at most seventeen digits. -/
theorem shortest_cases (x : Binary64) : x.shortest = ⟨0, 0⟩
    ∨ ∃ n ≤ 17, ∃ v d, hit? x.magnitude v (leadingPlace v) n = some d
      ∧ x.shortest = d.trim 20 := by
  unfold shortest
  split
  · exact .inl rfl
  simp only
  split
  · rename_i d hd
    obtain ⟨n, hn, hhit⟩ := List.exists_of_findSome?_eq_some hd
    simp only [List.mem_range'_1] at hn
    exact .inr ⟨n, by omega, _, d, hhit, rfl⟩
  · exact .inl rfl

/-- The shortest decimal of a double has at most eighteen digits. -/
theorem digitCount_shortest (x : Binary64) : digitCount x.shortest.digits ≤ 18 := by
  obtain hzero | ⟨n, hn, v, d, hhit, hd⟩ := x.shortest_cases
  · rw [hzero]
    decide
  · have hlt : x.shortest.digits < 10 ^ 18 := by
      rw [hd]
      calc (d.trim 20).digits ≤ d.digits := d.trim_digits 20
        _ ≤ 10 ^ n := hit?_digits hhit
        _ < 10 ^ 18 := Nat.pow_lt_pow_right (by decide) (Nat.lt_succ_of_le hn)
    exact (Nat.length_toDigits_le_iff (by decide) (by decide)).mpr hlt

/-- The first digit of a double stands less than four hundred places from the point. -/
theorem place_shortest {x : Binary64} (hx : 0 < x.magnitude) :
    -330 ≤ x.shortest.exponent + digitCount x.shortest.digits
      ∧ x.shortest.exponent + digitCount x.shortest.digits ≤ 310 := by
  have hread := ofDecimal?_of_nearest false hx x.finite (nearest_shortest x hx)
  unfold ofDecimal? at hread
  simp only at hread
  split at hread
  -- a double that is read as zero is zero
  · have hzero := congrArg magnitude (Option.some.inj hread)
    exact absurd hzero hx.ne
  · split at hread
    · cases hread
    · omega

end Binary64

/-! ## Written forms -/

namespace Json

open Binary64 (Decimal digitCount digitCount_shortest place_shortest)
open Number (AllDigits Written allDigits_toDigits pointForm scientificForm signChars wholeForm
  writtenDouble)

theorem size_digits {ds : List Char} (h : AllDigits ds) : utf8Len ds = ds.length := by
  induction ds with
  | nil => rfl
  | cons d rest ih =>
    have hd := h d (by simp)
    have hsize : d.utf8Size = 1 := by
      simp only [Char.isDigit, Bool.and_eq_true, decide_eq_true_eq, ge_iff_le] at hd
      exact Char.utf8Size_eq_one_iff.mpr (UInt32.le_trans hd.2 (by decide))
    rw [utf8Len_cons, ih fun c hc => h c (by simp [hc]), hsize, List.length_cons]

/-- The number of characters of a written form without its sign. -/
def Number.Written.length (w : Written) : Nat :=
  w.whole.length + w.fraction.elim 0 (·.length + 1) + w.exponent.elim 0 (·.2.length + 2)

theorem size_body {w : Written} (h : w.Digital) : utf8Len w.body = w.length := by
  obtain ⟨hwhole, -, hfraction, hexponent⟩ := h
  rw [Written.body, Written.length, utf8Len_append, utf8Len_append, size_digits hwhole,
    Nat.add_assoc]
  congr 2
  · cases hf : w.fraction with
    | none => rfl
    | some f =>
      simp only [Option.elim_some, utf8Len_cons, size_digits (hfraction f hf)]
      rfl
  · cases he : w.exponent with
    | none => rfl
    | some e =>
      have hsign : (if e.1 then '-' else '+').utf8Size = 1 := by split <;> rfl
      simp only [Option.elim_some, Written.exponentChars, utf8Len_cons, hsign,
        size_digits (hexponent e he).1]
      rfl

theorem length_writtenDouble (x : Binary64) : (writtenDouble x).length ≤ 24 := by
  have hdigits := digitCount_shortest x
  have hpos := Binary64.digitCount_pos x.shortest.digits
  unfold writtenDouble
  simp only
  split
  · show 3 ≤ 24
    decide
  · rename_i hne
    have hx : 0 < x.magnitude := by
      by_contra hzero
      rw [Binary64.shortest, if_pos (by omega)] at hne
      exact hne rfl
    obtain ⟨hlow, hhigh⟩ := place_shortest hx
    unfold digitCount at *
    split
    · -- the exponent has at most three digits
      have hplace : (Nat.toDigits 10 (x.shortest.exponent
          + (Nat.toDigits 10 x.shortest.digits).length - 1).natAbs).length ≤ 3 :=
        (Nat.length_toDigits_le_iff (by decide) (by decide)).mpr (by omega)
      simp only [scientificForm, Written.length]
      split <;> simp only [Option.elim_none, Option.elim_some, List.length_take, List.length_drop]
        <;> omega
    split
    · simp only [wholeForm, Written.length, Option.elim_none, Option.elim_some, List.length_append,
        List.length_replicate, List.length_singleton]
      omega
    · simp only [pointForm, Written.length, Option.elim_none, Option.elim_some, List.length_append,
        List.length_replicate, List.length_take, List.length_drop]
      omega

theorem length_writtenNumber (n : Number) : (writtenNumber n).length ≤ 24 := by
  cases n with
  | integer n =>
    have hlower := n.lower
    have hupper := n.upper
    have hdigits : (Nat.toDigits 10 n.val.natAbs).length ≤ 20 :=
      (Nat.length_toDigits_le_iff (by decide) (by decide)).mpr (by omega)
    exact hdigits.trans (by decide)
  | float x => exact length_writtenDouble x

/-- A number is written in at most twenty-five bytes. -/
theorem size_number (n : Number) : n.text.utf8ByteSize ≤ 25 := by
  have hsign : utf8Len (signChars (writtenNumber n).negative) ≤ 1 := by
    cases (writtenNumber n).negative <;> decide
  have hlength := length_writtenNumber n
  rw [← utf8Len_toList, toList_text, utf8Len_append, size_body (plain_writtenNumber n).digital]
  omega

/-! ## Texts -/

theorem size_hexDigit : ∀ n < 16, (hexDigit n).utf8Size = 1 := by
  decide

theorem size_escapeChar (c : Char) : utf8Len (escapeChar c) ≤ 6 * c.utf8Size := by
  have hpos := c.utf8Size_pos
  unfold escapeChar
  split
  all_goals try decide
  split
  · rename_i hcontrol
    have hhigh := size_hexDigit (c.toNat / 16) (by omega)
    have hlow := size_hexDigit (c.toNat % 16) (by omega)
    simp only [utf8Len_cons, utf8Len_nil, hhigh, hlow]
    have hslash : '\\'.utf8Size = 1 := rfl
    have hu : 'u'.utf8Size = 1 := rfl
    have hzero : '0'.utf8Size = 1 := rfl
    omega
  · simp only [utf8Len_cons, utf8Len_nil]
    omega

/-- A text between quotes takes at most six bytes for each of its own. -/
theorem size_quotedChars (s : String) : utf8Len (quotedChars s) ≤ 6 * s.utf8ByteSize + 2 := by
  have hchars : ∀ cs : List Char, utf8Len (cs.flatMap escapeChar) ≤ 6 * utf8Len cs := by
    intro cs
    induction cs with
    | nil => exact Nat.zero_le _
    | cons c rest ih =>
      have hc := size_escapeChar c
      rw [List.flatMap_cons, utf8Len_append, utf8Len_cons]
      omega
  have h := hchars s.toList
  have hquote : '"'.utf8Size = 1 := rfl
  rw [quotedChars, utf8Len_cons, utf8Len_append, utf8Len_cons, utf8Len_nil, hquote,
    ← utf8Len_toList]
  omega

end Json

end HttpContract
