import HttpContract.Admin.Route
import HttpContract.Proofs.Request.Form
import Mathlib.Algebra.GroupWithZero.Nat
import Mathlib.Data.String.Basic
import Mathlib.Data.List.DropRight

/-!
# Admin — which paths are about a name

A name stands in a path as a segment, and reading the segment decodes it. Decoding makes no text
longer (`length_decodeBytes`), so the segments of a path that is no longer than some names joined by
slashes decode to these names only if they are the names and nothing in them is decoded
(`decoded?_of_prefix`).
-/

namespace HttpContract

/-! ## Escapes -/

namespace Text.Percent

/-- Whether a percent sign with two hexadecimal digits behind it stands somewhere in a text. -/
def hasEscape : List Char → Bool
  | [] => false
  | '%' :: a :: b :: rest =>
    (Json.hexDigitValue? a).isSome && (Json.hexDigitValue? b).isSome || hasEscape (a :: b :: rest)
  | _ :: rest => hasEscape rest

theorem length_utf8 (cs : List Char) :
    (cs.flatMap String.utf8EncodeChar).length = String.utf8Len cs := by
  induction cs with
  | nil => rfl
  | cons c cs ih =>
    rw [List.flatMap_cons, List.length_append, ih, String.length_utf8EncodeChar,
      String.utf8Len_cons, Nat.add_comm]

theorem decodeBytes_escape {a b : Char} {m n : Nat} (ha : Json.hexDigitValue? a = some m)
    (hb : Json.hexDigitValue? b = some n) (rest : List Char) :
    decodeBytes ('%' :: a :: b :: rest) = UInt8.ofNat (m * 16 + n) :: decodeBytes rest := by
  simp only [decodeBytes, ha, hb]

/-- A character that starts no escape is kept. -/
theorem kept_cons {c : Char} {rest : List Char}
    (h : ∀ a b more m n, c = '%' → rest = a :: b :: more → Json.hexDigitValue? a = some m →
      Json.hexDigitValue? b = some n → False) :
    decodeBytes (c :: rest) = String.utf8EncodeChar c ++ decodeBytes rest
      ∧ hasEscape (c :: rest) = hasEscape rest := by
  by_cases hlong : ∃ a b more, c = '%' ∧ rest = a :: b :: more
  · obtain ⟨a, b, more, rfl, rfl⟩ := hlong
    cases ha : Json.hexDigitValue? a with
    | none => simp [decodeBytes, hasEscape, ha]
    | some m =>
      cases hb : Json.hexDigitValue? b with
      | none => simp [decodeBytes, hasEscape, ha, hb]
      | some n => exact (h a b more m n rfl rfl ha hb).elim
  · have hshort : ∀ a b more, c = '%' → rest = a :: b :: more → False :=
      fun a b more hc hrest => hlong ⟨a, b, more, hc, hrest⟩
    exact ⟨by rw [decodeBytes]; exact hshort, by rw [hasEscape]; exact hshort⟩

/-- Without an escape the bytes that are decoded are those of the text. -/
theorem decodeBytes_of_plain {cs : List Char} (h : hasEscape cs = false) :
    decodeBytes cs = cs.flatMap String.utf8EncodeChar := by
  induction cs with
  | nil => rfl
  | cons c rest ih =>
    have hkept : decodeBytes (c :: rest) = String.utf8EncodeChar c ++ decodeBytes rest
        ∧ hasEscape (c :: rest) = hasEscape rest := by
      apply kept_cons
      rintro a b more m n rfl rfl ha hb
      simp [hasEscape, ha, hb] at h
    obtain ⟨hdecoded, hescape⟩ := hkept
    rw [hdecoded, ih (hescape ▸ h), List.flatMap_cons]

/-- Decoding gives no more bytes than there are, and fewer where there is an escape. -/
theorem length_decodeBytes (cs : List Char) :
    (decodeBytes cs).length ≤ String.utf8Len cs
      ∧ (hasEscape cs = true → (decodeBytes cs).length < String.utf8Len cs) := by
  have hkept {c : Char} {rest : List Char}
      (ih : (decodeBytes rest).length ≤ String.utf8Len rest
        ∧ (hasEscape rest = true → (decodeBytes rest).length < String.utf8Len rest))
      (h : decodeBytes (c :: rest) = String.utf8EncodeChar c ++ decodeBytes rest
        ∧ hasEscape (c :: rest) = hasEscape rest) :
      (decodeBytes (c :: rest)).length ≤ String.utf8Len (c :: rest)
        ∧ (hasEscape (c :: rest) = true →
          (decodeBytes (c :: rest)).length < String.utf8Len (c :: rest)) := by
    rw [h.1, h.2, List.length_append, String.length_utf8EncodeChar, String.utf8Len_cons]
    exact ⟨by omega, fun hescape => by have := ih.2 hescape; omega⟩
  induction cs using decodeBytes.induct with
  | case1 => exact ⟨Nat.le_refl 0, nofun⟩
  | case2 a b rest m n hb ha ih =>
    -- one byte for at least three
    have hsign : '%'.utf8Size = 1 := rfl
    have ha' := a.utf8Size_pos
    rw [decodeBytes_escape ha hb, List.length_cons]
    simp only [String.utf8Len_cons]
    omega
  | case3 a b rest hnot ih =>
    refine hkept ih (kept_cons fun a' b' more m n _ hrest ha hb => ?_)
    cases hrest
    exact hnot m n ha hb
  | case4 c rest hnot ih =>
    exact hkept ih (kept_cons fun a b more m n hc hrest _ _ => hnot a b more hc hrest)

theorem utf8_of_textOfBytes? {bytes : List UInt8} {name : String}
    (h : textOfBytes? bytes = some name) :
    bytes = name.toList.flatMap String.utf8EncodeChar := by
  rw [textOfBytes?, String.fromUTF8?] at h
  split at h
  case isFalse => cases h
  case isTrue hvalid =>
    have hbytes : name.toByteArray = ⟨bytes.toArray⟩ := by
      rw [← Option.some.inj h]
      rfl
    rw [← String.utf8Encode_toList, List.utf8Encode] at hbytes
    have hdata := congrArg ByteArray.data hbytes
    rw [List.data_toByteArray] at hdata
    exact (congrArg Array.toList hdata).symm

/-- A text that decodes to another one is no shorter, and it is as long only if it is the same and
nothing in it is decoded. -/
theorem decode?_eq_some {cs : List Char} {name : String}
    (h : decode? (String.ofList cs) = some name) :
    String.utf8Len name.toList ≤ String.utf8Len cs
      ∧ (String.utf8Len cs ≤ String.utf8Len name.toList →
        cs = name.toList ∧ hasEscape cs = false) := by
  rw [decode?, String.toList_ofList] at h
  have hlength : (decodeBytes cs).length = String.utf8Len name.toList := by
    rw [utf8_of_textOfBytes? h, length_utf8]
  obtain ⟨hle, hlt⟩ := length_decodeBytes cs
  refine ⟨by omega, fun hlong => ?_⟩
  have hplain : hasEscape cs = false := by
    cases hescape : hasEscape cs with
    | false => rfl
    | true =>
      have := hlt hescape
      omega
  have hself : textOfBytes? (decodeBytes cs) = some (String.ofList cs) := by
    have hutf8 := textOfBytes?_utf8 (String.ofList cs)
    rwa [String.toList_ofList, ← decodeBytes_of_plain hplain] at hutf8
  obtain rfl : String.ofList cs = name := Option.some.inj (hself.symm.trans h)
  exact ⟨String.toList_ofList.symm, hplain⟩

theorem decode?_of_plain {name : String} (h : hasEscape name.toList = false) :
    decode? name = some name := by
  rw [decode?, decodeBytes_of_plain h, textOfBytes?_utf8]

end Text.Percent

/-! ## Segments -/

namespace Admin.Route

open String (utf8Len)

/-- Texts with slashes between them. -/
def joined : List (List Char) → List Char
  | [] => []
  | [part] => part
  | part :: rest => part ++ '/' :: joined rest

theorem joined_cons {part : List Char} {rest : List (List Char)} (h : rest ≠ []) :
    joined (part :: rest) = part ++ '/' :: joined rest := by
  rw [joined]
  exact h

theorem segments_eq (cs : List Char) : segments cs = Form.splitAll '/' cs := by
  induction cs with
  | nil => rfl
  | cons c cs ih =>
    cases hsplit : Form.splitAll '/' cs with
    | nil => simp only [segments, Form.splitAll, ih, hsplit]
    | cons part rest => simp only [segments, Form.splitAll, ih, hsplit]

theorem segments_ne_nil (cs : List Char) : segments cs ≠ [] := by
  rw [segments_eq]
  exact Form.splitAll_ne_nil '/' cs

theorem joined_cons_char (c : Char) (first : List Char) (more : List (List Char)) :
    joined ((c :: first) :: more) = c :: joined (first :: more) := by
  cases more <;> rfl

/-- What a text is split into: no segment has a slash, and with slashes between them the segments
are the text. -/
theorem segments_spec (cs : List Char) :
    joined (segments cs) = cs ∧ ∀ part ∈ segments cs, '/' ∉ part := by
  induction cs with
  | nil => exact ⟨rfl, by simp [segments]⟩
  | cons c cs ih =>
    obtain ⟨first, more, hsegments⟩ := List.exists_cons_of_ne_nil (segments_ne_nil cs)
    rw [hsegments, List.forall_mem_cons] at ih
    obtain ⟨hjoined, hfirst, hmore⟩ := ih
    rw [segments, hsegments]
    simp only
    by_cases hc : c = '/'
    · rw [if_pos hc, joined_cons (List.cons_ne_nil first more), hjoined, hc]
      exact ⟨rfl, List.forall_mem_cons.mpr ⟨List.not_mem_nil,
        List.forall_mem_cons.mpr ⟨hfirst, hmore⟩⟩⟩
    · rw [if_neg hc, joined_cons_char, hjoined]
      refine ⟨rfl, List.forall_mem_cons.mpr ⟨?_, hmore⟩⟩
      rw [List.mem_cons, not_or]
      exact ⟨Ne.symm hc, hfirst⟩

theorem segments_joined {parts : List (List Char)} (hne : parts ≠ [])
    (h : ∀ part ∈ parts, '/' ∉ part) : segments (joined parts) = parts := by
  induction parts with
  | nil => exact absurd rfl hne
  | cons part rest ih =>
    rw [List.forall_mem_cons] at h
    by_cases hrest : rest = []
    · subst hrest
      rw [joined, segments_eq, Form.splitAll_of_not_mem h.1]
    · rw [joined_cons hrest, segments_eq, Form.splitAll_append h.1, ← segments_eq,
        ih hrest h.2]

/-- Slashes take the places between the parts. -/
theorem utf8Len_joined {parts : List (List Char)} (h : parts ≠ []) :
    utf8Len (joined parts) + 1 = (parts.map utf8Len).sum + parts.length := by
  induction parts with
  | nil => exact absurd rfl h
  | cons part rest ih =>
    by_cases hrest : rest = []
    · subst hrest
      simp [joined]
    · have hslash : '/'.utf8Size = 1 := rfl
      have := ih hrest
      rw [joined_cons hrest, String.utf8Len_append, String.utf8Len_cons, List.map_cons,
        List.sum_cons, List.length_cons]
      omega

/-! ## Decoded segments -/

theorem mapM_eq_some_iff {α β : Type} {f : α → Option β} {as : List α} {bs : List β} :
    as.mapM f = some bs ↔ List.Forall₂ (fun a b => f a = some b) as bs := by
  induction as generalizing bs with
  | nil => simp [eq_comm]
  | cons a as ih =>
    simp only [List.mapM_cons, Option.bind_eq_bind, Option.bind_eq_some_iff, Option.pure_def,
      Option.some.injEq, List.forall₂_cons_left_iff, ← ih]
    constructor
    · rintro ⟨b, hb, bs, hbs, rfl⟩
      exact ⟨b, bs, hb, hbs, rfl⟩
    · rintro ⟨b, bs, hb, hbs, rfl⟩
      exact ⟨b, hb, bs, hbs, rfl⟩

/-- That segments decode to names, one by one. -/
abbrev Decodes (parts : List (List Char)) (names : List String) : Prop :=
  List.Forall₂ (fun part name => Text.Percent.decode? (String.ofList part) = some name) parts names

theorem Decodes.length_le {parts : List (List Char)} {names : List String}
    (h : Decodes parts names) :
    (names.map fun name => utf8Len name.toList).sum ≤ (parts.map utf8Len).sum := by
  induction h with
  | nil => exact Nat.le_refl 0
  | cons hpart _ ih =>
    have := (Text.Percent.decode?_eq_some hpart).1
    rw [List.map_cons, List.map_cons, List.sum_cons, List.sum_cons]
    omega

/-- Segments that decode to names and are together no longer than these are the names, and nothing
in them is decoded. -/
theorem Decodes.eq_of_length_le {parts : List (List Char)} {names : List String}
    (h : Decodes parts names)
    (hlength : (parts.map utf8Len).sum ≤ (names.map fun name => utf8Len name.toList).sum) :
    parts = names.map String.toList
      ∧ ∀ name ∈ names, Text.Percent.hasEscape name.toList = false := by
  induction h with
  | nil => exact ⟨rfl, by simp⟩
  | @cons part name parts names hpart hparts ih =>
    obtain ⟨hle, hsame⟩ := Text.Percent.decode?_eq_some hpart
    have hles := Decodes.length_le hparts
    rw [List.map_cons, List.map_cons, List.sum_cons, List.sum_cons] at hlength
    obtain ⟨rfl, hplain⟩ := hsame (by omega)
    obtain ⟨rfl, hplains⟩ := ih (by omega)
    exact ⟨rfl, List.forall_mem_cons.mpr ⟨hplain, hplains⟩⟩

theorem trimSlashes_eq (cs : List Char) : trimSlashes cs = cs.rdropWhile (· = '/') := rfl

theorem decoded?_iff {cs : List Char} {names : List String} :
    decoded? cs = some names ↔ Decodes (segments (trimSlashes cs)) names :=
  mapM_eq_some_iff

/-- A path that is no more than the start of some names with slashes between them is read as these
names only if it is all of them, no name has a slash and nothing in them is decoded. -/
theorem decoded?_of_prefix {cs : List Char} {names : List String}
    (hbegins : cs <+: joined (names.map String.toList)) (h : decoded? cs = some names) :
    cs = joined (names.map String.toList)
      ∧ ∀ name ∈ names, '/' ∉ name.toList ∧ Text.Percent.hasEscape name.toList = false := by
  have hdecodes := decoded?_iff.mp h
  obtain ⟨hjoined, hslash⟩ := segments_spec (trimSlashes cs)
  have htrimmed : trimSlashes cs <+: joined (names.map String.toList) :=
    (List.rdropWhile_prefix _ cs).trans hbegins
  have hne : names.map String.toList ≠ [] := by
    intro hnil
    rw [List.map_eq_nil_iff.mp hnil] at hdecodes
    cases hsegments : segments (trimSlashes cs) with
    | nil => exact segments_ne_nil _ hsegments
    | cons part parts =>
      rw [hsegments] at hdecodes
      cases hdecodes
  -- as many slashes stand between the segments as between the names, so they take nothing away
  have hlength : ((segments (trimSlashes cs)).map utf8Len).sum
      ≤ (names.map fun name => utf8Len name.toList).sum := by
    obtain ⟨behind, hbehind⟩ := htrimmed
    have hle : utf8Len (trimSlashes cs) ≤ utf8Len (joined (names.map String.toList)) := by
      rw [← hbehind, String.utf8Len_append]
      exact Nat.le_add_right _ _
    have hparts := utf8Len_joined (segments_ne_nil (trimSlashes cs))
    have hnames := utf8Len_joined hne
    rw [hjoined, hdecodes.length_eq] at hparts
    rw [List.length_map, List.map_map] at hnames
    simp only [Function.comp_def] at hnames
    omega
  obtain ⟨hparts, hplain⟩ := Decodes.eq_of_length_le hdecodes hlength
  rw [hparts] at hjoined hslash
  refine ⟨?_, fun name hname => ⟨hslash _ (List.mem_map_of_mem hname), hplain name hname⟩⟩
  have hback : joined (names.map String.toList) <+: cs := hjoined ▸ List.rdropWhile_prefix _ cs
  exact hbegins.eq_of_length_le hback.length_le

theorem trimSlashes_concat {c : Char} (h : c ≠ '/') (before : List Char) :
    trimSlashes (before ++ [c]) = before ++ [c] := by
  rw [trimSlashes_eq, List.rdropWhile_concat, if_neg (by simpa using h)]

/-- Parts that are not empty and have no slashes do not end in one. -/
theorem joined_eq_concat {parts : List (List Char)} (hne : parts ≠ [])
    (hslash : ∀ part ∈ parts, '/' ∉ part) (hempty : ∀ part ∈ parts, part ≠ []) :
    ∃ before c, joined parts = before ++ [c] ∧ c ≠ '/' := by
  induction parts with
  | nil => exact absurd rfl hne
  | cons part rest ih =>
    rw [List.forall_mem_cons] at hslash hempty
    by_cases hrest : rest = []
    · subst hrest
      refine ⟨part.dropLast, part.getLast hempty.1,
        (List.dropLast_append_getLast hempty.1).symm, ?_⟩
      intro hlast
      exact hslash.1 (hlast ▸ List.getLast_mem hempty.1)
    · obtain ⟨before, c, hjoined, hc⟩ := ih hrest hslash.2 hempty.2
      refine ⟨part ++ '/' :: before, c, ?_, hc⟩
      rw [joined_cons hrest, hjoined, List.append_assoc, List.cons_append]

/-- Names are read back from any segments that decode to them, are not empty and have no slashes. -/
theorem decoded?_joined {write : String → List Char} {names : List String} (hne : names ≠ [])
    (hslash : ∀ name ∈ names, '/' ∉ write name) (hempty : ∀ name ∈ names, write name ≠ [])
    (h : ∀ name ∈ names, Text.Percent.decode? (String.ofList (write name)) = some name) :
    decoded? (joined (names.map write)) = some names := by
  have hparts : names.map write ≠ [] := mt List.map_eq_nil_iff.mp hne
  have hslashes : ∀ part ∈ names.map write, '/' ∉ part := List.forall_mem_map.mpr hslash
  obtain ⟨before, c, hjoined, hc⟩ :=
    joined_eq_concat hparts hslashes (List.forall_mem_map.mpr hempty)
  have htrim : trimSlashes (joined (names.map write)) = joined (names.map write) := by
    rw [hjoined, trimSlashes_concat hc]
  rw [decoded?_iff, htrim, segments_joined hparts hslashes, Decodes, List.forall₂_map_left_iff,
    List.forall₂_same]
  exact h

/-! ## Paths of apps and contracts -/

theorem after?_append (word : String) (rest : List Char) :
    after? word (word.toList ++ rest) = some rest := by
  rw [after?, if_pos (List.isPrefixOf_iff_prefix.mpr (List.prefix_append ..)),
    List.drop_left]

/-- Slashes are taken from the end of what is appended, and then from what stands before it. -/
theorem trimSlashes_append (before behind : List Char) :
    trimSlashes (before ++ behind)
      = if trimSlashes behind = [] then trimSlashes before else before ++ trimSlashes behind := by
  simp only [trimSlashes, List.reverse_append, List.dropWhile_append, List.isEmpty_iff,
    List.reverse_eq_nil_iff]
  split
  · rfl
  · rw [List.reverse_append, List.reverse_reverse]

/-- The start of the path of an app. -/
def appsBase : List Char := "/api/v1/apps/".toList

/-- The start of the path of a contract. -/
def contractsBase : List Char := "/api/v1/contracts/".toList

theorem append_ne {start word : String} (h : ¬start.toList <+: word.toList) (rest : List Char) :
    start.toList ++ rest ≠ word.toList := by
  intro hsame
  rw [← hsame] at h
  exact h (List.prefix_append ..)

theorem ofList_append_ne {start word : String} (h : ¬start.toList <+: word.toList)
    (rest : List Char) : String.ofList (start.toList ++ rest) ≠ word := by
  rintro rfl
  exact append_ne h rest String.toList_ofList.symm

theorem after?_append_of_not {start word : String} (hstart : ¬start.toList <+: word.toList)
    (hword : ¬word.toList <+: start.toList) (rest : List Char) :
    after? word (start.toList ++ rest) = none := by
  rw [after?, if_neg]
  rw [List.isPrefixOf_iff_prefix]
  intro hbegins
  exact (List.prefix_or_prefix_of_prefix hbegins (List.prefix_append ..)).elim hword hstart

theorem ofPath_interface (rest : List Char) :
    ofPath (String.ofList ("/api/v1/".toList ++ rest))
      = ofInterfacePath (trimSlashes ('/' :: rest)) := by
  have hafter : after? "/api/v1" ("/api/v1/".toList ++ rest) = some ('/' :: rest) :=
    after?_append "/api/v1" ('/' :: rest)
  rw [ofPath, if_neg, if_neg, if_neg, String.toList_ofList, hafter]
  · exact ofList_append_ne (by decide) rest
  · exact ofList_append_ne (by decide) rest
  · rw [Bool.or_eq_true, decide_eq_true_eq, decide_eq_true_eq, not_or]
    exact ⟨ofList_append_ne (by decide) rest, ofList_append_ne (by decide) rest⟩

/-- With nothing but slashes below it, a collection is all that the path is about. -/
theorem ofPath_below (collection rest : List Char) :
    ofPath (String.ofList ("/api/v1/".toList ++ (collection ++ rest)))
      = ofInterfacePath (if trimSlashes rest = [] then trimSlashes ('/' :: collection)
        else '/' :: (collection ++ trimSlashes rest)) := by
  rw [ofPath_interface, ← List.cons_append, trimSlashes_append, List.cons_append]

theorem ofPath_apps (rest : List Char) :
    ofPath (String.ofList (appsBase ++ rest))
      = if trimSlashes rest = [] then .ok .apps else ofAppPath (trimSlashes rest) := by
  have hbelow := ofPath_below "apps/".toList rest
  rw [← List.append_assoc] at hbelow
  refine hbelow.trans ?_
  split
  · rfl
  · show ofInterfacePath ("/apps/".toList ++ trimSlashes rest) = _
    rw [ofInterfacePath, if_neg, if_neg, after?_append_of_not (by decide) (by decide),
      after?_append]
    · exact append_ne (by decide) _
    · exact append_ne (by decide) _

theorem ofPath_contracts (rest : List Char) :
    ofPath (String.ofList (contractsBase ++ rest))
      = if trimSlashes rest = [] then .ok .contracts else ofContractPath (trimSlashes rest) := by
  have hbelow := ofPath_below "contracts/".toList rest
  rw [← List.append_assoc] at hbelow
  refine hbelow.trans ?_
  split
  · rfl
  · show ofInterfacePath ("/contracts/".toList ++ trimSlashes rest) = _
    rw [ofInterfacePath, if_neg, if_neg, after?_append]
    · exact append_ne (by decide) _
    · exact append_ne (by decide) _

/-! ## What paths are about -/

theorem appPart?_whole {rest : List String} : appPart? rest = some .whole ↔ rest = [] := by
  constructor
  · intro h
    unfold appPart? at h
    split at h
    · rfl
    all_goals (repeat' split at h) <;> exact nomatch h
  · rintro rfl
    rfl

theorem appPart?_version {rest : List String} {label : String} :
    appPart? rest = some (.version label) ↔ rest = ["versions", label] := by
  constructor
  · intro h
    unfold appPart? at h
    split at h
    case h_3 a other =>
      split at h
      case isTrue ha =>
        rw [ha, AppPart.version.inj (Option.some.inj h)]
      case isFalse => exact nomatch h
    all_goals (repeat' split at h) <;> exact nomatch h
  · rintro rfl
    rfl

theorem ofAppPath_iff {cs : List Char} {id : String} {part : AppPart} :
    ofAppPath cs = .ok (.app id part) ↔
      ∃ rest, decoded? cs = some (id :: rest) ∧ id ≠ "" ∧ appPart? rest = some part := by
  unfold ofAppPath
  rcases hdecoded : decoded? cs with _ | ⟨_ | ⟨other, rest⟩⟩
  · simp
  · simp
  · simp only [String.isEmpty_iff]
    by_cases hempty : other = ""
    · rw [if_pos hempty]
      constructor
      · exact nofun
      · rintro ⟨rest', hsame, hne, -⟩
        cases hsame
        exact absurd hempty hne
    · rw [if_neg hempty]
      cases hpart : appPart? rest with
      | none =>
        constructor
        · exact nofun
        · rintro ⟨rest', hsame, -, hpart'⟩
          cases hsame
          exact nomatch hpart.symm.trans hpart'
      | some found =>
        constructor
        · intro h
          cases h
          exact ⟨rest, rfl, hempty, hpart⟩
        · rintro ⟨rest', hsame, -, hpart'⟩
          cases hsame
          rw [Option.some.inj (hpart.symm.trans hpart')]

theorem ofContractPath_iff {cs : List Char} {id : String} :
    ofContractPath cs = .ok (.contract id) ↔ decoded? cs = some [id] := by
  unfold ofContractPath
  rcases decoded? cs with _ | ⟨_ | ⟨other, _ | ⟨next, rest⟩⟩⟩ <;> simp

theorem decoded?_trimSlashes (cs : List Char) : decoded? (trimSlashes cs) = decoded? cs := by
  rw [decoded?, decoded?, trimSlashes_eq, trimSlashes_eq, List.rdropWhile_idempotent]

theorem decoded?_slashes {cs : List Char} (h : trimSlashes cs = []) : decoded? cs = some [""] := by
  rw [← decoded?_trimSlashes, h]
  rfl

theorem ofPath_apps_iff {cs : List Char} {id : String} {part : AppPart} :
    ofPath (String.ofList (appsBase ++ cs)) = .ok (.app id part) ↔
      ∃ rest, decoded? cs = some (id :: rest) ∧ id ≠ "" ∧ appPart? rest = some part := by
  rw [ofPath_apps]
  by_cases hslashes : trimSlashes cs = []
  · rw [if_pos hslashes, decoded?_slashes hslashes]
    constructor
    · exact nofun
    · rintro ⟨rest, hsame, hid, -⟩
      cases hsame
      exact absurd rfl hid
  · rw [if_neg hslashes, ofAppPath_iff, decoded?_trimSlashes]

theorem ofPath_contracts_iff {cs : List Char} {id : String} (hid : id ≠ "") :
    ofPath (String.ofList (contractsBase ++ cs)) = .ok (.contract id)
      ↔ decoded? cs = some [id] := by
  rw [ofPath_contracts]
  by_cases hslashes : trimSlashes cs = []
  · rw [if_pos hslashes, decoded?_slashes hslashes]
    simp [hid.symm]
  · rw [if_neg hslashes, ofContractPath_iff, decoded?_trimSlashes]

/-- A path that is about an app has a name for it. -/
theorem ofPath_named {path id : String} {part : AppPart}
    (h : ofPath path = .ok (.app id part)) : id ≠ "" := by
  have hinterface {cs : List Char} (h : ofInterfacePath cs = .ok (.app id part)) : id ≠ "" := by
    unfold ofInterfacePath at h
    split at h
    · exact nomatch h
    · split at h
      · exact nomatch h
      · split at h
        · unfold ofContractPath at h
          split at h <;> exact nomatch h
        · split at h
          · obtain ⟨-, -, hid, -⟩ := ofAppPath_iff.mp h
            exact hid
          · exact nomatch h
  unfold ofPath at h
  split at h
  · exact nomatch h
  · split at h
    · exact nomatch h
    · split at h
      · exact nomatch h
      · split at h
        · exact hinterface h
        · exact nomatch h

/-! ## Names in locations -/

/-- A name that stands in a path as it is: it has no mark that ends a segment or the path, and no
escape. -/
structure Addressable (name : String) : Prop where
  slash : '/' ∉ name.toList
  query : '?' ∉ name.toList
  fragment : '#' ∉ name.toList
  plain : Text.Percent.hasEscape name.toList = false

/-- The start of a text up to what ends a path. -/
def pathPart (cs : List Char) : List Char := cs.takeWhile fun c => c ≠ '?' && c ≠ '#'

theorem mem_joined {parts : List (List Char)} {part : List Char} {c : Char}
    (hpart : part ∈ parts) (hc : c ∈ part) : c ∈ joined parts := by
  induction parts with
  | nil => exact nomatch hpart
  | cons first rest ih =>
    by_cases hrest : rest = []
    · subst hrest
      rw [List.mem_singleton.mp hpart] at hc
      exact hc
    · rw [joined_cons hrest, List.mem_append, List.mem_cons]
      rcases List.mem_cons.mp hpart with rfl | hlater
      · exact .inl hc
      · exact .inr (.inr (ih hlater))

theorem of_mem_joined {parts : List (List Char)} {c : Char} (h : c ∈ joined parts) :
    c = '/' ∨ ∃ part ∈ parts, c ∈ part := by
  induction parts with
  | nil => exact nomatch h
  | cons first rest ih =>
    by_cases hrest : rest = []
    · subst hrest
      exact .inr ⟨first, List.mem_cons_self, h⟩
    · rw [joined_cons hrest, List.mem_append, List.mem_cons] at h
      rcases h with hfirst | hslash | hlater
      · exact .inr ⟨first, List.mem_cons_self, hfirst⟩
      · exact .inl hslash
      · obtain ⟨part, hpart, hc⟩ | hslash := (ih hlater).symm
        · exact .inr ⟨part, List.mem_cons_of_mem first hpart, hc⟩
        · exact .inl hslash

/-- The path in a location with given names is read as these names exactly if each of them can
stand in a path as it is. -/
theorem decoded?_pathPart {names : List String} (hne : names ≠ []) (hempty : "" ∉ names) :
    decoded? (pathPart (joined (names.map String.toList))) = some names
      ↔ ∀ name ∈ names, Addressable name := by
  have hends {c : Char} : (decide (c ≠ '?') && decide (c ≠ '#')) = true ↔ c ≠ '?' ∧ c ≠ '#' := by
    rw [Bool.and_eq_true, decide_eq_true_eq, decide_eq_true_eq]
  constructor
  · intro h name hname
    obtain ⟨hwhole, hnames⟩ := decoded?_of_prefix (List.takeWhile_prefix _) h
    have hkept : ∀ c ∈ name.toList, c ≠ '?' ∧ c ≠ '#' := by
      intro c hc
      have hmem := mem_joined (List.mem_map_of_mem hname) hc
      rw [← hwhole] at hmem
      have hpass := List.mem_takeWhile_imp hmem
      exact hends.mp hpass
    exact ⟨(hnames name hname).1, fun hmem => (hkept _ hmem).1 rfl,
      fun hmem => (hkept _ hmem).2 rfl, (hnames name hname).2⟩
  · intro h
    have hwhole : pathPart (joined (names.map String.toList))
        = joined (names.map String.toList) := by
      refine List.takeWhile_eq_self_iff.mpr fun c hc => hends.mpr ?_
      rcases of_mem_joined hc with rfl | ⟨part, hpart, hc⟩
      · decide
      · obtain ⟨name, hname, rfl⟩ := List.mem_map.mp hpart
        refine ⟨?_, ?_⟩
        · rintro rfl
          exact (h name hname).query hc
        · rintro rfl
          exact (h name hname).fragment hc
    rw [hwhole]
    refine decoded?_joined hne (fun name hname => (h name hname).slash) ?_ ?_
    · intro name hname hnil
      exact hempty (String.toList_eq_nil_iff.mp hnil ▸ hname)
    · intro name hname
      rw [String.ofList_toList]
      exact Text.Percent.decode?_of_plain (h name hname).plain

theorem encode_ne_nil {name : String} (h : name ≠ "") :
    (Text.Percent.encode name).toList ≠ [] := by
  intro hnil
  have hdecoded := Text.Percent.decode?_encode name
  rw [String.toList_eq_nil_iff.mp hnil] at hdecoded
  exact h (Option.some.inj hdecoded).symm

/-- Encoded names are read back, whatever characters they have. -/
theorem decoded?_encoded {names : List String} (hne : names ≠ []) (hempty : "" ∉ names) :
    decoded? (joined (names.map fun name => (Text.Percent.encode name).toList)) = some names := by
  refine decoded?_joined hne (fun name _ => Text.Percent.not_mem_encode rfl name) ?_ ?_
  · intro name hname
    apply encode_ne_nil
    rintro rfl
    exact hempty hname
  · intro name _
    rw [String.ofList_toList]
    exact Text.Percent.decode?_encode name

end Admin.Route

end HttpContract
