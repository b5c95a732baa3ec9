import HttpContract.Proofs.Script.Expression
import HttpContract.Proofs.Script.Scan

/-!
# Script — how members are laid out

Containers and calls are written alike: an opening symbol, members with commas between them, and a
closing symbol, with blanks in front of the members and of the closing symbol. `enclosed` is that
text, and it scans to the tokens of its members between the symbols (`Prints.enclosed`).
-/

namespace HttpContract.Script

open Expression (members)

/-- A text that scans to some tokens in front of everything that does not run into its last one. -/
structure Prints (cs : List Char) (ks : List TokenKind) : Prop where
  nonempty : ks ≠ []
  scans : ∀ rest, Delimited rest → Scans (cs ++ rest) ks rest

theorem Yields.prints {cs : List Char} {k : TokenKind}
    (h : ∀ rest, Delimited rest → Yields (cs ++ rest) k rest) : Prints cs [k] :=
  ⟨by simp, fun rest hrest => (h rest hrest).scans⟩

theorem prints_quoted (s : String) : Prints (Json.quotedChars s) [.string s] :=
  Yields.prints fun rest _ => yields_quoted s rest

theorem prints_name (name : String) (h : isPlainName name = true) :
    Prints name.toList [.identifier name] :=
  Yields.prints fun _ hrest => yields_name h hrest.not_inIdentifier

/-- A text behind a symbol. -/
theorem Prints.after_symbol {cs : List Char} {ks : List TokenKind} {s : Symbol} (hs : s ≠ .dot)
    (h : Prints cs ks) : Prints (s.char :: cs) (.symbol s :: ks) :=
  ⟨by simp, fun rest hrest => scans_symbol hs (h.scans rest hrest)⟩

/-- Blanks. -/
def Blank (cs : List Char) : Prop := ∀ c ∈ cs, c = ' ' ∨ c = '\n'

theorem Blank.isWhiteSpace {cs : List Char} (h : Blank cs) :
    ∀ c ∈ cs, Unicode.isWhiteSpace c = true := by
  intro c hc
  rcases h c hc with rfl | rfl <;> decide

theorem Prints.blanks {bs cs : List Char} {ks : List TokenKind} (hbs : Blank bs)
    (h : Prints cs ks) : Prints (bs ++ cs) ks := by
  refine ⟨h.nonempty, fun rest hrest => ?_⟩
  have hscan := h.scans rest hrest
  cases ks with
  | nil => exact absurd rfl h.nonempty
  | cons k ks =>
    rw [List.append_assoc]
    exact hscan.blanks hbs.isWhiteSpace

theorem Blank.delimited {bs cs : List Char} (h : Blank bs) (hcs : Delimited cs) :
    Delimited (bs ++ cs) := by
  cases bs with
  | nil => exact hcs
  | cons b bs =>
    apply Delimited.cons
    rcases h b (by simp) with rfl | rfl <;> decide

/-! ## Members -/

/-- What follows a member: the other members, each behind a comma and blanks, and the end. -/
def following (gap ending : List Char) : List (List Char) → List Char
  | [] => ending
  | cs :: rest => ',' :: (gap ++ cs ++ following gap ending rest)

/-- Members between two symbols: `first` stands in front of the first of them, `gap` in front of the
others and `last` behind the last one. -/
def enclosed (opening closing : Char) (first gap last : List Char) : List (List Char) → List Char
  | [] => [opening, closing]
  | cs :: rest => opening :: (first ++ cs ++ following gap (last ++ [closing]) rest)

theorem scans_following {gap last : List Char} {closing : Symbol} (hgap : Blank gap)
    (hlast : Blank last) (hclosing : closing ≠ .dot) (hdelimiter : closing.char ∈ delimiters)
    {css : List (List Char)} {kss : List (List TokenKind)} (h : List.Forall₂ Prints css kss)
    (rest : List Char) :
    Delimited (following gap (last ++ [closing.char]) css ++ rest)
      ∧ Scans (following gap (last ++ [closing.char]) css ++ rest)
        (kss.flatMap (.symbol .comma :: ·) ++ [.symbol closing]) rest := by
  induction h with
  | nil =>
    rw [following, List.append_assoc]
    refine ⟨hlast.delimited (.cons hdelimiter), ?_⟩
    exact (scans_symbol hclosing (.nil rest)).blanks hlast.isWhiteSpace
  | @cons cs ks css kss hcs _ ih =>
    obtain ⟨hdelimited, hscan⟩ := ih
    refine ⟨.cons (by decide), ?_⟩
    have hmember := ((hcs.blanks hgap).scans _ hdelimited).append hscan
    rw [List.flatMap_cons, List.cons_append, List.cons_append, List.append_assoc, following,
      List.cons_append, List.append_assoc]
    exact scans_symbol (s := .comma) (by simp) hmember

/-- Members between two symbols scan to their tokens between the symbols. -/
theorem Prints.enclosed (opening closing : Symbol) {first gap last : List Char}
    (hfirst : Blank first) (hgap : Blank gap) (hlast : Blank last) (hopening : opening ≠ .dot)
    (hclosing : closing ≠ .dot) (hdelimiter : closing.char ∈ delimiters) {css : List (List Char)}
    {kss : List (List TokenKind)} (h : List.Forall₂ Prints css kss) :
    Prints (Script.enclosed opening.char closing.char first gap last css)
      (.symbol opening :: (members kss ++ [.symbol closing])) := by
  refine ⟨by simp, fun rest _ => ?_⟩
  cases h with
  | nil => exact scans_symbol hopening (scans_symbol hclosing (.nil rest))
  | @cons cs ks css kss hcs h =>
    obtain ⟨hdelimited, hscan⟩ := scans_following hgap hlast hclosing hdelimiter h rest
    have hmember := ((hcs.blanks hfirst).scans _ hdelimited).append hscan
    rw [members, List.append_assoc, Script.enclosed, List.cons_append, List.append_assoc]
    exact scans_symbol hopening hmember

/-- A name followed by something between parentheses. -/
theorem Prints.after_name {name : String} {cs : List Char} {ks : List TokenKind}
    (hname : isPlainName name = true) (h : Prints cs ks) (hcs : ∀ rest, Delimited (cs ++ rest)) :
    Prints (name.toList ++ cs) (.identifier name :: ks) := by
  refine ⟨by simp, fun rest hrest => ?_⟩
  rw [List.append_assoc]
  exact ((prints_name name hname).scans _ (hcs rest)).append (h.scans rest hrest)

/-- A key, its colon and a value behind blanks. -/
theorem Prints.keyed {key cs bs : List Char} {k : TokenKind} {ks : List TokenKind}
    (hkey : Prints key [k]) (hbs : Blank bs) (h : Prints cs ks) :
    Prints (key ++ ':' :: (bs ++ cs)) (k :: .symbol .colon :: ks) := by
  refine ⟨by simp, fun rest hrest => ?_⟩
  rw [List.append_assoc]
  have hvalue : Scans (':' :: (bs ++ cs ++ rest)) (.symbol .colon :: ks) rest :=
    scans_symbol (s := .colon) (by simp) ((h.blanks hbs).scans rest hrest)
  exact (hkey.scans _ (.cons (by decide))).append hvalue

end HttpContract.Script
