import HttpContract.Proofs.Request.Received

/-!
# Request — repeated names

Query values and headers are collected by their names. There is one field for each name, in the
order in which the names first appear, and it is made of the values of the name alone
(`Pairs.collect_eq`). A query value is the value or the list of the values, so that writing the
collected values gives the pairs back, put together by name (`Form.queryPairs_grouped`), and a
header is the text of its values (`Pairs.joined_eq`).
-/

namespace HttpContract

variable {α : Type}

/-! ## Names -/

theorem eraseDups_concat (names : List String) (name : String) :
    (names ++ [name]).eraseDups
      = if name ∈ names then names.eraseDups else names.eraseDups ++ [name] := by
  rw [List.eraseDups_append, List.cons_removeAll, List.nil_removeAll]
  by_cases h : name ∈ names
  · simp [h]
  · simp [h, List.eraseDups_cons]

theorem nodup_eraseDups (names : List String) : names.eraseDups.Nodup := by
  induction names using List.reverseRecOn with
  | nil => exact List.nodup_nil
  | append_singleton rest name ih =>
    rw [eraseDups_concat]
    split
    · exact ih
    · rename_i hnew
      exact nodup_append_singleton.mpr ⟨mt List.mem_eraseDups.mp hnew, ih⟩

/-- Fields are known by the order of their names and what is found by each. -/
theorem eq_map_of_lookup {fields : List (String × α)} {names : List String} {f : String → α}
    (hkeys : fields.map (·.1) = names) (hnames : names.Nodup)
    (h : ∀ name ∈ names, fields.lookup name = some (f name)) :
    fields = names.map fun name => (name, f name) := by
  have hself : ∀ field ∈ fields, (field.1, f field.1) = field := by
    intro field hfield
    have hfound := lookup_of_nodup (hkeys ▸ hnames) hfield
    rw [h field.1 (hkeys ▸ List.mem_map_of_mem hfield), Option.some.injEq] at hfound
    rw [hfound]
  rw [← hkeys, List.map_map]
  exact (map_eq_self hself).symm

namespace Pairs

/-- The names in the order in which they first appear. -/
def names (pairs : Pairs) : List String := (pairs.map (·.1)).eraseDups

theorem mem_names {pairs : Pairs} {name : String} :
    name ∈ pairs.names ↔ ∃ p ∈ pairs, p.1 = name := by
  rw [names, List.mem_eraseDups, List.mem_map]

theorem values_ne_nil {pairs : Pairs} {name : String} (h : name ∈ pairs.names) :
    pairs.values name ≠ [] := by
  obtain ⟨p, hp, rfl⟩ := mem_names.mp h
  have hmem : p.2 ∈ pairs.values p.1 :=
    List.mem_map_of_mem (List.mem_filter.mpr ⟨hp, decide_eq_true rfl⟩)
  exact List.ne_nil_of_mem hmem

/-! ## Collecting -/

theorem keys_collect (new : String → α) (change : String → α → α) (pairs : Pairs) :
    (pairs.collect new change).map (·.1) = pairs.names := by
  induction pairs using List.reverseRecOn with
  | nil => rfl
  | append_singleton rest p ih =>
    rw [collect, List.foldl_append, ← collect, List.foldl_cons, List.foldl_nil, keys_alter, ih,
      names, names, List.map_append, List.map_singleton, eraseDups_concat]
    simp only [List.mem_eraseDups]

/-- Pairs are collected to one field for each name, which is made of its values in their order. -/
theorem collect_eq {new : String → α} {change : String → α → α} {f : List String → α}
    (h : ∀ values, values ≠ [] → values.foldl
      (fun known value => some (known.elim (new value) (change value))) none = some (f values))
    (pairs : Pairs) :
    pairs.collect new change = pairs.names.map fun name => (name, f (pairs.values name)) := by
  refine eq_map_of_lookup (keys_collect new change pairs) (nodup_eraseDups _) fun name hname => ?_
  rw [lookup_collect, h _ (values_ne_nil hname)]

/-- The pairs put together by name, those of a name in their order. -/
def byName (pairs : Pairs) : Pairs := pairs.names.flatMap fun name => pairs.filter (·.1 = name)

theorem flatMap_filter_perm {names : List String} (hnames : names.Nodup) (pairs : Pairs) :
    (names.flatMap fun name => pairs.filter (·.1 = name)).Perm
      (pairs.filter (·.1 ∈ names)) := by
  induction names with
  | nil => simp
  | cons name rest ih =>
    rw [List.nodup_cons] at hnames
    -- the pairs of all names are those of the first and those of the others, which it is not among
    have hparts := List.filter_append_perm (·.1 = name) (pairs.filter (·.1 ∈ name :: rest))
    rw [List.filter_filter, List.filter_filter] at hparts
    have hfirst : pairs.filter (fun p => decide (p.1 = name) && decide (p.1 ∈ name :: rest))
        = pairs.filter (·.1 = name) :=
      List.filter_congr fun p _ => by grind
    have hrest : pairs.filter (fun p => !decide (p.1 = name) && decide (p.1 ∈ name :: rest))
        = pairs.filter (·.1 ∈ rest) :=
      List.filter_congr fun p _ => by grind
    rw [hfirst, hrest] at hparts
    exact ((ih hnames.2).append_left _).trans hparts

/-- Nothing is lost or added where pairs are put together by name. -/
theorem byName_perm (pairs : Pairs) : pairs.byName.Perm pairs := by
  have hall : pairs.filter (·.1 ∈ pairs.names) = pairs :=
    List.filter_eq_self.mpr fun p hp => decide_eq_true (mem_names.mpr ⟨p, hp, rfl⟩)
  have hperm := flatMap_filter_perm (nodup_eraseDups (pairs.map (·.1))) pairs
  exact hperm.trans (List.Perm.of_eq hall)

end Pairs

/-! ## Query values -/

namespace Form

/-- What the values of a name are grouped to: a single one is kept, several are listed. -/
def group : List String → Json
  | [s] => .string s
  | values => .array (values.map .string)

theorem group?_eq_group {values : List String} (h : values ≠ []) :
    group? values = some (group values) := by
  match values with
  | [_] => rfl
  | _ :: _ :: _ => rfl

/-- Each name has its value or the list of its values. -/
theorem grouped_eq (pairs : Pairs) :
    grouped pairs = pairs.names.map fun name => (name, group (pairs.values name)) := by
  rw [grouped_eq_collect]
  exact Pairs.collect_eq (fun values hne => (foldl_extend values).trans (group?_eq_group hne)) pairs

theorem pairsOf_group (name : String) (values : List String) :
    WireRequest.pairsOf name (group values) = values.map fun value => (name, value) := by
  match values with
  | [] => rfl
  | [_] => rfl
  | first :: second :: more =>
    show ((first :: second :: more).map Json.string).map (fun v => (name, v.plainText)) = _
    rw [List.map_map]
    rfl

/-- Writing what was grouped gives the pairs back, put together by name. -/
theorem queryPairs_grouped (pairs : Pairs) :
    WireRequest.queryPairs (grouped pairs) = pairs.byName := by
  have hname (name : String) : (pairs.values name).map (fun value => (name, value))
      = pairs.filter (·.1 = name) := by
    rw [Pairs.values, List.map_map]
    refine map_eq_self fun p hp => ?_
    rw [← of_decide_eq_true (List.mem_filter.mp hp).2]
    rfl
  rw [grouped_eq, WireRequest.queryPairs, List.flatMap_map, Pairs.byName]
  simp only [pairsOf_group, hname]

end Form

/-! ## Headers -/

namespace Pairs

/-- Headers with their names in small letters. -/
def lowered (headers : Pairs) : Pairs := headers.map fun h => (h.1.toLower, h.2)

theorem foldl_join {values : List String} (h : values ≠ []) :
    values.foldl (fun known value => some (known.elim (.string value) fun known =>
      .string (known.asString?.getD "" ++ ", " ++ value))) none
      = some (Json.string (", ".intercalate values)) := by
  induction values using List.reverseRecOn with
  | nil => exact absurd rfl h
  | append_singleton values value ih =>
    rw [List.foldl_append]
    by_cases hvalues : values = []
    · subst hvalues
      simp
    · rw [ih hvalues, String.intercalate_append_of_ne_nil hvalues (List.cons_ne_nil value []),
        String.intercalate_singleton]
      rfl

/-- Each name in small letters has the text of its values, with commas and blanks between them. -/
theorem joined_eq (headers : Pairs) :
    headers.joined = headers.lowered.names.map fun name =>
      (name, .string (", ".intercalate (headers.lowered.values name))) := by
  have hcollect : headers.joined = headers.lowered.collect .string fun value known =>
      .string (known.asString?.getD "" ++ ", " ++ value) := by
    rw [joined, collect, lowered, List.foldl_map]
    simp only [Request.joinHeader_eq_alter]
  rw [hcollect]
  exact collect_eq (fun values hne => foldl_join hne) headers.lowered

/-- The value that is found of a header is the first one of its name, whatever the case of the name
is. -/
theorem header?_eq_head? (headers : Pairs) (name : String) :
    headers.header? name = (headers.lowered.values name.toLower).head? := by
  have hvalues : headers.lowered.values name.toLower
      = (headers.filter fun h => h.1.toLower = name.toLower).map (·.2) := by
    rw [values, lowered, List.filter_map, List.map_map]
    rfl
  rw [hvalues, List.head?_map, List.head?_filter, header?]

/-- Grouping repeated names keeps every value, and the order of those of one name. There is one
field for each name, in the order in which the names first appear: it has the value, or the list of
the values of a name that is given more than once. Writing the fields gives the pairs back, put
together by name, and grouping these again gives the same fields. Headers have one field for each
name in small letters, with the values of the name joined, and a header is found, whatever the case
of its name is, as the first of these values. -/
theorem collected_by_name (pairs : Pairs) (r : Request) :
    (Form.grouped pairs = pairs.names.map fun name => (name, Form.group (pairs.values name)))
    ∧ WireRequest.queryPairs (Form.grouped pairs) = pairs.byName
    ∧ pairs.byName.Perm pairs
    ∧ Form.grouped (WireRequest.queryPairs (Form.grouped pairs)) = Form.grouped pairs
    ∧ (r.headerFields = r.headers.lowered.names.map fun name =>
        (name, .string (", ".intercalate (r.headers.lowered.values name))))
    ∧ ∀ name, r.header? name = (r.headers.lowered.values name.toLower).head? :=
  ⟨Form.grouped_eq pairs, Form.queryPairs_grouped pairs, byName_perm pairs,
    (Form.grouped_eq_iff _).mpr ⟨Form.nodup_grouped pairs, Form.isGroup_grouped pairs⟩,
    joined_eq r.headers, header?_eq_head? r.headers⟩

end Pairs

end HttpContract
