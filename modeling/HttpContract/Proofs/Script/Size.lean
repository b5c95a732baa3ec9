import HttpContract.Proofs.Script.Run
import Mathlib.Data.String.Basic

/-!
# Script — the texts in scripts

The texts and names of a script's tokens take no more bytes than the script (`size_tokensOf`): each
step of the scanner takes at least as many bytes from the text as the token that it makes has, since
an escape is never shorter than the character that it stands for.
-/

namespace HttpContract.Script

open String (utf8Len utf8Len_append utf8ByteSize_ofList utf8Len_cons utf8Len_nil utf8Len_reverse
  utf8Len_toList)

/-- The bytes of the text or the name that a token is. -/
def TokenKind.size : TokenKind → Nat
  | .string s => s.utf8ByteSize
  | .identifier name => name.utf8ByteSize
  | _ => 0

/-- The bytes of the texts and names among tokens. -/
def textSize (ks : List TokenKind) : Nat := (ks.map TokenKind.size).sum

theorem textSize_append (ks ls : List TokenKind) :
    textSize (ks ++ ls) = textSize ks + textSize ls := by
  rw [textSize, List.map_append, List.sum_append_nat]
  rfl

theorem textSize_cons (k : TokenKind) (ks : List TokenKind) :
    textSize (k :: ks) = k.size + textSize ks := by
  rw [textSize, List.map_cons, List.sum_cons]
  rfl

theorem textSize_infix {ks ls : List TokenKind} (h : ks <:+: ls) : textSize ks ≤ textSize ls := by
  obtain ⟨before, behind, rfl⟩ := h
  rw [textSize_append, textSize_append]
  omega

/-! ## Blanks and texts -/

theorem size_skip {skipping : Skipping} {p : Place} {cs : List Char} {cursor : Cursor}
    (h : skip skipping p cs = .ok cursor) : utf8Len cursor.text ≤ utf8Len cs := by
  fun_induction skip skipping p cs with
  | case1 | case2 =>
    cases h
    exact le_rfl
  | case3 => cases h
  | case7 =>
    cases h
    exact le_rfl
  | case4 _ _ ih | case5 _ _ ih | case6 _ _ _ _ _ _ ih | case8 _ _ ih | case9 _ _ _ _ ih
  | case10 _ _ _ ih | case11 _ _ _ _ _ ih =>
    have hrest := ih h
    simp only [utf8Len_cons]
    omega

theorem size_escaped (c : Char) : (escaped c).utf8Size ≤ c.utf8Size := by
  unfold escaped
  split <;> first | decide | exact le_rfl

theorem size_readString {quote : Char} {done : List Char} {p : Place} {cs : List Char} {s : String}
    {cursor : Cursor} (h : readString quote done p cs = .ok (s, cursor)) :
    s.utf8ByteSize + utf8Len cursor.text ≤ utf8Len done + utf8Len cs := by
  fun_induction readString quote done p cs with
  | case1 | case2 | case4 | case5 | case8 => cases h
  | case3 done _ a b c d rest x _ ih =>
    -- four bytes at most for a character that is written with six
    have hx := x.utf8Size_le_four
    have ha := a.utf8Size_pos
    have hb := b.utf8Size_pos
    have hc := c.utf8Size_pos
    have hd := d.utf8Size_pos
    have hrest := ih h
    simp only [utf8Len_cons] at hrest ⊢
    omega
  | case6 _ _ _ ih =>
    have hrest := ih h
    simp only [utf8Len_cons]
    omega
  | case7 _ _ c _ _ _ _ ih =>
    have hc := size_escaped c
    have hrest := ih h
    simp only [utf8Len_cons] at hrest ⊢
    omega
  | case9 =>
    cases h
    simp only [utf8ByteSize_ofList, utf8Len_reverse, utf8Len_cons]
    omega
  | case10 _ _ _ _ _ _ _ ih =>
    have hrest := ih h
    simp only [utf8Len_cons] at hrest ⊢
    omega

/-! ## Tokens -/

theorem utf8Len_span (p : Char → Bool) (cs : List Char) :
    utf8Len (cs.span p).1 + utf8Len (cs.span p).2 = utf8Len cs := by
  rw [List.span_eq_takeWhile_dropWhile, ← utf8Len_append, List.takeWhile_append_dropWhile]

theorem size_spanNumber (cs : List Char) : utf8Len (spanNumber cs).2 ≤ utf8Len cs := by
  fun_induction spanNumber cs with
  | case1 | case6 => exact le_rfl
  | case5 => exact Nat.zero_le _
  | case2 _ _ _ _ ih | case4 _ _ _ _ _ _ _ ih => exact ih.trans (Nat.le_add_right ..)
  | case3 _ _ _ _ _ _ _ ih =>
    exact ih.trans ((Nat.le_add_right ..).trans (Nat.le_add_right ..))

theorem size_readToken {p : Place} {c : Char} {cs : List Char} {k : TokenKind} {cursor : Cursor}
    (h : readToken p c cs = .ok (k, cursor)) :
    k.size + utf8Len cursor.text ≤ utf8Len (c :: cs) := by
  unfold readToken at h
  split at h
  · split at h
    · rename_i hread
      cases h
      have hsize := size_readString hread
      simp only [TokenKind.size, utf8Len_cons, utf8Len_nil] at hsize ⊢
      omega
    · cases h
  split at h
  · simp only at h
    split at h
    · cases h
      have hsize := size_spanNumber (c :: cs)
      simpa [TokenKind.size] using hsize
    · cases h
  split at h
  · have hsize := utf8Len_span inIdentifier cs
    generalize cs.span inIdentifier = parts at h hsize
    cases h
    simp only [TokenKind.size, utf8ByteSize_ofList, utf8Len_cons]
    omega
  · split at h <;> cases h
    simp only [TokenKind.size, utf8Len_cons]
    omega

theorem size_nextToken {cursor cursor' : Cursor} {t : Token}
    (h : nextToken cursor = .ok (t, cursor')) :
    t.kind.size + utf8Len cursor'.text ≤ utf8Len cursor.text := by
  unfold nextToken at h
  split at h
  · cases h
  · cases h
    exact Nat.zero_le _
  · rename_i hskip
    have hsize := size_skip hskip
    split at h
    · cases h
    · rename_i hread
      cases h
      exact (size_readToken hread).trans hsize

theorem size_readTokens (count : Nat) (cursor : Cursor) :
    textSize ((readTokens count cursor).list.map (·.kind)) ≤ utf8Len cursor.text := by
  induction count generalizing cursor with
  | zero => exact Nat.zero_le _
  | succ count ih =>
    rw [readTokens]
    split
    · exact Nat.zero_le _
    · exact Nat.zero_le _
    · rename_i t cursor' _ hnext
      have hsize := size_nextToken hnext
      have hrest := ih cursor'
      simp only [List.map_cons, textSize_cons]
      omega

/-- The texts and names of a script's tokens take no more bytes than the script. -/
theorem size_tokensOf (source : String) : textSize (tokensOf source) ≤ source.utf8ByteSize := by
  rw [← utf8Len_toList]
  exact size_readTokens _ _

end HttpContract.Script
