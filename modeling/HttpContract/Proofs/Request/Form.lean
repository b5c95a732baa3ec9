import HttpContract.Proofs.Basic
import HttpContract.WireTest.Message
import Mathlib.Data.List.Induction
import Mathlib.Data.List.Nodup

/-!
# Request — reading forms that were written

Reading the text of names and values gives them back (`Form.parse_encode`), and grouping the texts
of named values gives the values back (`Form.grouped_queryPairs`), if no name comes twice and every
value is a text or a list of at least two texts; null is left out. What is found by a name in
grouped values depends on the values of this name alone (`Form.lookup_grouped`).
-/

namespace HttpContract

/-! ## Percent encoding -/

namespace Text.Percent

/-- Whether a character stands in encoded text. -/
def isCode (c : Char) : Bool := isPlain c || c = '%'

theorem isPlain_hexDigit : ∀ n < 16, isPlain (hexDigit n) = true := by decide

theorem hexDigitValue?_hexDigit : ∀ n < 16, Json.hexDigitValue? (hexDigit n) = some n := by decide

theorem isCode_escapeByte (b : UInt8) : ∀ c ∈ escapeByte b, isCode c = true := by
  have hb := b.toNat_lt
  intro c hc
  simp only [escapeByte, List.mem_cons, List.not_mem_nil, or_false] at hc
  rcases hc with rfl | rfl | rfl
  · rfl
  · rw [isCode, isPlain_hexDigit _ (by omega), Bool.true_or]
  · rw [isCode, isPlain_hexDigit _ (by omega), Bool.true_or]

theorem isCode_encodeChars (cs : List Char) : ∀ c ∈ encodeChars cs, isCode c = true := by
  intro c hc
  obtain ⟨d, -, hd⟩ := List.mem_flatMap.mp hc
  rw [encodeChar] at hd
  split at hd
  · rename_i hplain
    rw [List.mem_singleton.mp hd, isCode, hplain, Bool.true_or]
  · obtain ⟨b, -, hb⟩ := List.mem_flatMap.mp hd
    exact isCode_escapeByte b c hb

/-- A mark that is not used in encoded text does not occur in it. -/
theorem not_mem_encode {mark : Char} (h : isCode mark = false) (s : String) :
    mark ∉ (encode s).toList := by
  intro hmem
  rw [encode, String.toList_ofList] at hmem
  rw [isCode_encodeChars _ _ hmem] at h
  cases h

theorem decodeBytes_escapeByte (b : UInt8) (rest : List Char) :
    decodeBytes (escapeByte b ++ rest) = b :: decodeBytes rest := by
  have hb := b.toNat_lt
  have hvalue : b.toNat / 16 * 16 + b.toNat % 16 = b.toNat := by omega
  simp only [escapeByte, List.cons_append, List.nil_append, decodeBytes,
    hexDigitValue?_hexDigit _ (show b.toNat / 16 < 16 by omega),
    hexDigitValue?_hexDigit _ (show b.toNat % 16 < 16 by omega), hvalue, UInt8.ofNat_toNat]

theorem decodeBytes_escapeBytes (bytes : List UInt8) (rest : List Char) :
    decodeBytes (bytes.flatMap escapeByte ++ rest) = bytes ++ decodeBytes rest := by
  induction bytes with
  | nil => rfl
  | cons b bytes ih =>
    rw [List.flatMap_cons, List.append_assoc, decodeBytes_escapeByte, ih, List.cons_append]

theorem decodeBytes_cons {c : Char} (h : c ≠ '%') (rest : List Char) :
    decodeBytes (c :: rest) = String.utf8EncodeChar c ++ decodeBytes rest := by
  rw [decodeBytes]
  intro a b more hc
  exact absurd hc h

theorem decodeBytes_encodeChar (c : Char) (rest : List Char) :
    decodeBytes (encodeChar c ++ rest) = String.utf8EncodeChar c ++ decodeBytes rest := by
  rw [encodeChar]
  split
  · rename_i hplain
    refine decodeBytes_cons ?_ rest
    rintro rfl
    exact absurd hplain (by decide)
  · exact decodeBytes_escapeBytes _ rest

theorem decodeBytes_encodeChars (cs : List Char) :
    decodeBytes (encodeChars cs) = cs.flatMap String.utf8EncodeChar := by
  induction cs with
  | nil => rfl
  | cons c cs ih =>
    rw [encodeChars, List.flatMap_cons, decodeBytes_encodeChar, ← encodeChars, ih,
      List.flatMap_cons]

theorem textOfBytes?_utf8 (s : String) :
    textOfBytes? (s.toList.flatMap String.utf8EncodeChar) = some s := by
  have hbytes : (⟨(s.toList.flatMap String.utf8EncodeChar).toArray⟩ : ByteArray)
      = s.toByteArray := by
    rw [← String.utf8Encode_toList, List.utf8Encode]
    ext1
    rw [List.data_toByteArray]
  rw [textOfBytes?, hbytes, String.fromUTF8?, dif_pos s.isValidUTF8]
  rfl

theorem decode?_encode (s : String) : decode? (encode s) = some s := by
  rw [decode?, encode, String.toList_ofList, decodeBytes_encodeChars, textOfBytes?_utf8]

end Text.Percent

/-! ## Forms -/

namespace Form

open Text (Percent.isCode Percent.not_mem_encode Percent.decode?_encode)

variable {mark : Char}

theorem splitAll_of_not_mem {part : List Char} (h : mark ∉ part) : splitAll mark part = [part] := by
  induction part with
  | nil => rfl
  | cons c part ih =>
    rw [List.mem_cons, not_or] at h
    simp [splitAll, ih h.2, Ne.symm h.1]

theorem splitAll_ne_nil (mark : Char) (cs : List Char) : splitAll mark cs ≠ [] := by
  cases cs with
  | nil => simp [splitAll]
  | cons c cs =>
    rw [splitAll]
    split
    · simp
    · split <;> simp

theorem splitAll_append {part : List Char} (h : mark ∉ part) (rest : List Char) :
    splitAll mark (part ++ mark :: rest) = part :: splitAll mark rest := by
  induction part with
  | nil =>
    obtain ⟨first, more, hrest⟩ := List.exists_cons_of_ne_nil (splitAll_ne_nil mark rest)
    simp [splitAll, hrest]
  | cons c part ih =>
    rw [List.mem_cons, not_or] at h
    simp [splitAll, ih h.2, Ne.symm h.1]

theorem splitFirst_append {part : List Char} (h : mark ∉ part) (rest : List Char) :
    splitFirst mark (part ++ mark :: rest) = (part, rest) := by
  induction part with
  | nil => simp [splitFirst]
  | cons c part ih =>
    rw [List.mem_cons, not_or] at h
    simp [splitFirst, ih h.2, Ne.symm h.1]

/-- Splitting takes apart what was joined. -/
theorem splitAll_intercalate {part : String} {parts : List String}
    (h : ∀ p ∈ part :: parts, '&' ∉ p.toList) :
    splitAll '&' ("&".intercalate (part :: parts)).toList
      = (part :: parts).map String.toList := by
  induction parts generalizing part with
  | nil => simpa using splitAll_of_not_mem (h part (by simp))
  | cons next parts ih =>
    have hjoined : ("&".intercalate (part :: next :: parts)).toList
        = part.toList ++ '&' :: ("&".intercalate (next :: parts)).toList := by
      rw [String.intercalate_cons_cons]
      simp
    rw [hjoined, splitAll_append (h part (by simp)), ih fun p hp => h p (by simp [hp])]
    rfl

theorem decodePart_encode (s : String) : decodePart (Text.Percent.encode s).toList = s := by
  have hplus : withBlanks (Text.Percent.encode s).toList = (Text.Percent.encode s).toList := by
    refine map_eq_self fun c hc => if_neg ?_
    rintro rfl
    exact Text.Percent.not_mem_encode rfl s hc
  rw [decodePart, hplus, String.ofList_toList, Text.Percent.decode?_encode, Option.getD_some]

/-- A name and a value as they are written. -/
def partText (p : String × String) : String :=
  Text.Percent.encode p.1 ++ "=" ++ Text.Percent.encode p.2

theorem toList_partText (p : String × String) :
    (partText p).toList
      = (Text.Percent.encode p.1).toList ++ '=' :: (Text.Percent.encode p.2).toList := by
  simp [partText]

theorem not_mem_partText (p : String × String) : '&' ∉ (partText p).toList := by
  rw [toList_partText, List.mem_append, List.mem_cons, not_or, not_or]
  exact ⟨Text.Percent.not_mem_encode rfl _, by decide, Text.Percent.not_mem_encode rfl _⟩

theorem encode_eq (pairs : List (String × String)) :
    encode pairs = "&".intercalate (pairs.map partText) := rfl

/-- Reading the text of names and values gives them back. -/
theorem parse_encode (pairs : List (String × String)) : parse (encode pairs) = pairs := by
  cases pairs with
  | nil => rfl
  | cons p pairs =>
    have hparts : splitAll '&' (encode (p :: pairs)).toList
        = (p :: pairs).map fun q => (partText q).toList := by
      rw [encode_eq, List.map_cons, splitAll_intercalate, ← List.map_cons (f := partText),
        List.map_map]
      · rfl
      · intro text htext
        rw [← List.map_cons (f := partText)] at htext
        obtain ⟨q, -, rfl⟩ := List.mem_map.mp htext
        exact not_mem_partText q
    rw [parse, hparts, List.filter_eq_self.mpr, List.map_map]
    · refine map_eq_self fun q _ => ?_
      simp only [Function.comp_apply, toList_partText]
      rw [splitFirst_append (Text.Percent.not_mem_encode rfl _), decodePart_encode,
        decodePart_encode]
    · intro part hpart
      obtain ⟨q, -, rfl⟩ := List.mem_map.mp hpart
      simp [toList_partText]

/-! ## Grouping -/

/-- Whether what arrives for a value in a form is the value: a text, at least two texts, or null,
which is left out. -/
def isArriving : Json → Bool
  | .null => true
  | .string _ => true
  | .array (.string _ :: .string _ :: more) => more.all fun v => v.asString?.isSome
  | _ => false

theorem addValue_eq_alter (name value : String) (fields : List (String × Json)) :
    addValue name value fields
      = alter name (.string value) (fun known => extend known value) fields := by
  induction fields with
  | nil => rfl
  | cons f rest ih => rw [addValue, alter, ih]

theorem addValue_new {name : String} {fields : List (String × Json)}
    (h : name ∉ fields.map (·.1)) (value : String) :
    addValue name value fields = fields ++ [(name, .string value)] := by
  rw [addValue_eq_alter, alter_new h]

theorem addValue_known {name : String} {fields : List (String × Json)}
    (h : name ∉ fields.map (·.1)) (known : Json) (value : String) :
    addValue name value (fields ++ [(name, known)]) = fields ++ [(name, extend known value)] := by
  induction fields with
  | nil => rw [List.nil_append, addValue, if_pos rfl, List.nil_append]
  | cons f rest ih =>
    rw [List.map_cons, List.mem_cons, not_or] at h
    rw [List.cons_append, addValue, if_neg (Ne.symm h.1), ih h.2, List.cons_append]

/-- Grouping goes on with what is grouped already. -/
def groupOnto (fields : List (String × Json)) (pairs : List (String × String)) :
    List (String × Json) := pairs.foldl (fun fields p => addValue p.1 p.2 fields) fields

theorem groupOnto_items {name : String} {fields : List (String × Json)}
    (h : name ∉ fields.map (·.1)) (more : List Json)
    (htexts : more.all (fun v => v.asString?.isSome) = true) (known : List Json) :
    groupOnto (fields ++ [(name, .array known)]) (more.map fun v => (name, v.plainText))
      = fields ++ [(name, .array (known ++ more))] := by
  induction more generalizing known with
  | nil => simp [groupOnto]
  | cons v more ih =>
    rw [List.all_cons, Bool.and_eq_true] at htexts
    cases v with
    | string s =>
      have hstep := ih htexts.2 (known ++ [.string s])
      rw [List.append_assoc, List.singleton_append] at hstep
      rw [List.map_cons, groupOnto, List.foldl_cons, addValue_known h]
      exact hstep
    | _ => cases htexts.1

/-- The texts of a value are grouped to the value; null has none. -/
theorem groupOnto_pairsOf {name : String} {fields : List (String × Json)}
    (h : name ∉ fields.map (·.1)) {v : Json} (hv : isArriving v = true) :
    groupOnto fields (WireRequest.pairsOf name v)
      = if v.isNull then fields else fields ++ [(name, v)] := by
  unfold isArriving at hv
  split at hv
  · rfl
  · exact addValue_new h _
  · rename_i s t more
    have htwo : addValue name t (addValue name s fields)
        = fields ++ [(name, .array [.string s, .string t])] := by
      rw [addValue_new h, addValue_known h]
      rfl
    have hitems := groupOnto_items h more hv [.string s, .string t]
    rw [← htwo] at hitems
    exact hitems
  · cases hv

theorem groupOnto_queryPairs {fields : List (String × Json)} (hnames : (fields.map (·.1)).Nodup)
    (h : ∀ f ∈ fields, isArriving f.2 = true) (known : List (String × Json))
    (hknown : ∀ f ∈ fields, f.1 ∉ known.map (·.1)) :
    groupOnto known (WireRequest.queryPairs fields)
      = known ++ fields.filter fun f => !f.2.isNull := by
  induction fields generalizing known with
  | nil => simp [WireRequest.queryPairs, groupOnto]
  | cons f rest ih =>
    rw [List.map_cons, List.nodup_cons] at hnames
    have hrest : ∀ g ∈ rest, isArriving g.2 = true := fun g hg => h g (by simp [hg])
    have hnew : ∀ g ∈ rest, g.1 ∉ known.map (·.1) := fun g hg => hknown g (by simp [hg])
    have hfirst := groupOnto_pairsOf (hknown f (by simp)) (h f (by simp))
    have hpairs : groupOnto known (WireRequest.queryPairs (f :: rest))
        = groupOnto (groupOnto known (WireRequest.pairsOf f.1 f.2))
          (WireRequest.queryPairs rest) := by
      simp [WireRequest.queryPairs, groupOnto]
    rw [hpairs, hfirst]
    split
    · rename_i hnull
      rw [ih hnames.2 hrest known hnew, List.filter_cons_of_neg (by simp [hnull])]
    · rename_i hnull
      rw [ih hnames.2 hrest, List.filter_cons_of_pos (by simp [hnull]), List.append_assoc]
      · rfl
      · intro g hg
        rw [List.map_append, List.mem_append, not_or]
        refine ⟨hnew g hg, fun hgf => ?_⟩
        have hsame : g.1 = f.1 := by simpa using hgf
        exact hnames.1 (hsame ▸ List.mem_map_of_mem hg)

/-- Grouping the texts of named values gives the values back; null is left out. -/
theorem grouped_queryPairs {fields : List (String × Json)} (hnames : (fields.map (·.1)).Nodup)
    (h : ∀ f ∈ fields, isArriving f.2 = true) :
    grouped (WireRequest.queryPairs fields) = fields.filter fun f => !f.2.isNull :=
  (groupOnto_queryPairs hnames h [] (by simp)).trans (List.nil_append _)

/-- What the values of one name are grouped to. -/
def group? : List String → Option Json
  | [] => none
  | [s] => some (.string s)
  | values => some (.array (values.map .string))

theorem group?_append (values : List String) (value : String) :
    group? (values ++ [value])
      = some ((group? values).elim (.string value) fun known => extend known value) := by
  match values with
  | [] => rfl
  | [_] => rfl
  | first :: second :: more =>
    show some (Json.array _) = some (.array _)
    rw [← List.map_singleton (f := Json.string), ← List.map_append]
    rfl

end Form

/-- The values of a name, in their order. -/
def Pairs.values (pairs : Pairs) (name : String) : List String :=
  (pairs.filter fun p => p.1 = name).map (·.2)

namespace Pairs

theorem values_append (first second : Pairs) (name : String) :
    (first ++ second).values name = first.values name ++ second.values name := by
  rw [values, List.filter_append, List.map_append]
  rfl

theorem values_cons (p : String × String) (rest : Pairs) (name : String) :
    values (p :: rest) name = if p.1 = name then p.2 :: rest.values name else rest.values name := by
  rw [values, List.filter_cons]
  by_cases h : p.1 = name
  · simp [h, values]
  · simp [h, values]

/-- Fields that are made of pairs, one after the other: the first value of a name makes its field,
which each further one changes. -/
def collect {α : Type} (new : String → α) (change : String → α → α) (pairs : Pairs) :
    List (String × α) :=
  pairs.foldl (fun fields p => alter p.1 (new p.2) (change p.2) fields) []

/-- What is collected under a name is made of the values of the name alone. -/
theorem lookup_collect {α : Type} (new : String → α) (change : String → α → α) (pairs : Pairs)
    (name : String) :
    (pairs.collect new change).lookup name
      = (pairs.values name).foldl
        (fun known value => some (known.elim (new value) (change value))) none := by
  -- pairs are collected from the left, so that the last pair is what one step adds
  induction pairs using List.reverseRecOn with
  | nil => rfl
  | append_singleton rest p ih =>
    rw [collect, List.foldl_append, ← collect, List.foldl_cons, List.foldl_nil, lookup_alter,
      values_append, values_cons]
    by_cases hname : name = p.1
    · rw [if_pos hname, if_pos hname.symm, ← hname, List.foldl_append, ← ih]
      rfl
    · rw [if_neg hname, if_neg (Ne.symm hname), ih]
      exact congrArg (List.foldl _ none) (List.append_nil _).symm

end Pairs

namespace Form

theorem grouped_eq_collect (pairs : Pairs) :
    grouped pairs = pairs.collect .string fun value known => extend known value :=
  congrArg (List.foldl · [] pairs) (funext₂ fun fields p => addValue_eq_alter p.1 p.2 fields)

theorem foldl_extend (values : List String) :
    values.foldl (fun known value =>
      some (known.elim (.string value) fun known => extend known value)) none = group? values := by
  induction values using List.reverseRecOn with
  | nil => rfl
  | append_singleton values value ih =>
    rw [List.foldl_append, ih]
    exact (group?_append values value).symm

/-- What is found by a name are the values of the name. -/
theorem lookup_grouped (pairs : Pairs) (name : String) :
    (grouped pairs).lookup name = group? (pairs.values name) := by
  rw [grouped_eq_collect, Pairs.lookup_collect]
  exact foldl_extend _

/-- What is found by the name of a value is the value, if absence counts as null. -/
theorem lookup_present {fields : List (String × Json)} (hnames : (fields.map (·.1)).Nodup)
    {f : String × Json} (hf : f ∈ fields) :
    ((fields.filter fun f => !f.2.isNull).lookup f.1).getD .null = f.2 := by
  by_cases hnull : f.2.isNull = true
  · have hnone : (fields.filter fun f => !f.2.isNull).lookup f.1 = none := by
      refine List.lookup_eq_none_iff.mpr fun g hg => ?_
      rw [List.mem_filter] at hg
      have hne : g ≠ f := fun heq => by simp [heq, hnull] at hg
      have hother : g.1 ≠ f.1 := fun heq => hne (List.inj_on_of_nodup_map hnames hg.1 hf heq)
      simpa using hother.symm
    rw [hnone]
    cases hv : f.2 with
    | null => rfl
    | _ => rw [hv] at hnull; cases hnull
  · have hkept : ((fields.filter fun f => !f.2.isNull).map (·.1)).Nodup :=
      hnames.sublist (List.filter_sublist.map _)
    rw [lookup_of_nodup hkept (List.mem_filter.mpr ⟨hf, by simpa using hnull⟩)]
    rfl

end Form

end HttpContract
