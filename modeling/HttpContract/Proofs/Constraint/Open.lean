import HttpContract.Constraint.Compare
import HttpContract.Constraint.Evaluate
import HttpContract.Proofs.Basic

/-!
# Constraint — what a tree does not declare

Objects and arrays are open: `restrict` takes from a value what a tree declares, and values are
`AlikeFor` a tree if they are alike as far as it declares anything about them. Comparing only looks
at that, so that a value is judged like what is left of it, and what is absent like null
(`compare_declared`).
-/

namespace HttpContract.Constraint

/-! ## The declared part of a value -/

mutual

/-- What a tree declares of a value: the declared fields of an object and the first items of an
array, each restricted as well. A two-sided value declares what the side does that a stub takes. -/
def restrict : Constraint → Json → Json
  | object fields, .object actual =>
    .object (actual.filterMap fun f => (restrictField f.1 f.2 fields).map fun v => (f.1, v))
  | array items, .array actual => .array (restrictItems items actual)
  | dual .both stub _, v => restrictBranch stub v
  | dual .stubOnly stub _, v => restrictBranch stub v
  | dual .testOnly _ test, v => restrictBranch test v
  | _, v => v
termination_by structural c => c

/-- What is declared of the value of a field, if the field is declared. Under a name that is
declared twice, which scripts cannot do, all of it is kept. -/
def restrictField (key : String) (v : Json) : List (String × Constraint) → Option Json
  | [] => none
  | (k, c) :: rest =>
    if k = key then some (if key ∈ rest.map (·.1) then v else c.restrict v)
    else restrictField key v rest
termination_by structural fields => fields

/-- What is declared of the items of an array. -/
def restrictItems : List Constraint → List Json → List Json
  | c :: rest, v :: actual => c.restrict v :: restrictItems rest actual
  | _, _ => []
termination_by structural items => items

/-- What a side declares of a value; a missing one declares all of it. -/
def restrictBranch : Option Constraint → Json → Json
  | none, v => v
  | some c, v => c.restrict v
termination_by structural c => c

end

/-- Values that are alike as far as a tree declares anything about them. Fields that are not
declared and further items do not count, and what is absent is like null. -/
inductive AlikeFor : Constraint → Json → Json → Prop where
  | same (c : Constraint) (v : Json) : AlikeFor c v v
  | object {fields : List (String × Constraint)} {actual actual' : List (String × Json)}
    (h : ∀ f ∈ fields, AlikeFor f.2 ((actual.lookup f.1).getD .null)
      ((actual'.lookup f.1).getD .null)) :
    AlikeFor (.object fields) (.object actual) (.object actual')
  | array {items : List Constraint} {actual actual' : List Json}
    (h : ∀ (i : Nat) c, items[i]? = some c →
      AlikeFor c (actual[i]?.getD .null) (actual'[i]?.getD .null)) :
    AlikeFor (.array items) (.array actual) (.array actual')
  | dual {s : Sidedness} {stub test : Option Constraint} {c : Constraint} {v w : Json}
    (hside : selected s .stub stub test = some c) (h : AlikeFor c v w) :
    AlikeFor (.dual s stub test) v w

/-! ## Comparing -/

theorem compareFields_congr {fields : List (String × Constraint)}
    {actual actual' : List (String × Json)}
    (h : ∀ f ∈ fields, f.2.compare ((actual.lookup f.1).getD .null)
      = f.2.compare ((actual'.lookup f.1).getD .null)) :
    compareFields fields actual = compareFields fields actual' := by
  induction fields with
  | nil => rfl
  | cons f rest ih =>
    obtain ⟨k, c⟩ := f
    rw [compareFields, compareFields, h (k, c) (by simp), ih fun g hg => h g (by simp [hg])]

theorem compareItems_congr {items : List Constraint} {actual actual' : List Json}
    (h : ∀ (i : Nat) c, items[i]? = some c →
      c.compare (actual[i]?.getD .null) = c.compare (actual'[i]?.getD .null)) :
    compareItems items actual = compareItems items actual' := by
  induction items generalizing actual actual' with
  | nil => rfl
  | cons c rest ih =>
    -- comparing takes items from the front, where the condition counts them
    have hfirst := h 0 c rfl
    rw [← List.head?_eq_getElem?, ← List.head?_eq_getElem?] at hfirst
    have hrest : compareItems rest actual.tail = compareItems rest actual'.tail := by
      refine ih fun i d hd => ?_
      rw [List.getElem?_tail, List.getElem?_tail]
      exact h (i + 1) d hd
    rw [compareItems, compareItems, hfirst, hrest]

/-- A two-sided value is compared as the side that a stub takes. -/
theorem compare_selected {s : Sidedness} {stub test : Option Constraint} {c : Constraint}
    (h : selected s .stub stub test = some c) (v : Json) : (dual s stub test).compare v
      = c.compare v := by
  cases s <;> cases h <;> rfl

/-- Values that are alike for a tree are judged alike. -/
theorem AlikeFor.compare_eq {c : Constraint} {v w : Json} (h : c.AlikeFor v w) :
    c.compare v = c.compare w := by
  induction h with
  | same => rfl
  | object _ ih => exact compareFields_congr ih
  | array _ ih => exact compareItems_congr ih
  | dual hside _ ih => rw [compare_selected hside, compare_selected hside, ih]

/-! ## Restricting -/

theorem lookup_filterMap {g : String → Json → Option Json} {key : String}
    (h : ∀ v, (g key v).isSome = true) (actual : List (String × Json)) :
    (actual.filterMap fun f => (g f.1 f.2).map fun v => (f.1, v)).lookup key
      = (actual.lookup key).bind (g key) := by
  induction actual with
  | nil => rfl
  | cons f rest ih =>
    obtain ⟨k, v⟩ := f
    by_cases hk : key = k
    · subst hk
      obtain ⟨w, hw⟩ := Option.isSome_iff_exists.mp (h v)
      rw [List.filterMap_cons_some (b := (key, w)) (by rw [hw]; rfl), List.lookup_cons_self,
        List.lookup_cons_self, Option.bind_some, hw]
    · rw [List.lookup_cons, beq_false_of_ne hk, ← ih]
      cases hg : g k v with
      | none => rw [List.filterMap_cons_none (by rw [hg]; rfl)]
      | some w =>
        rw [List.filterMap_cons_some (b := (k, w)) (by rw [hg]; rfl), List.lookup_cons,
          beq_false_of_ne hk]

mutual

/-- Restricting keeps what a tree declares. -/
theorem alike_restrict (c : Constraint) (v : Json) : c.AlikeFor v (c.restrict v) := by
  match c with
  | .constant _ => exact .same _ v
  | .object fields =>
    cases v with
    | object actual =>
      refine .object fun f hf => ?_
      have hdeclared := alike_restrictField fields f hf
      have hsome : ∀ v, (restrictField f.1 v fields).isSome = true := fun v => by
        obtain ⟨w, hw, -⟩ := hdeclared v
        rw [hw, Option.isSome_some]
      rw [lookup_filterMap (g := fun key v => restrictField key v fields) hsome]
      cases actual.lookup f.1 with
      | none => exact .same _ _
      | some v =>
        obtain ⟨w, hw, halike⟩ := hdeclared v
        rw [Option.bind_some, hw]
        exact halike
    | _ => exact .same _ _
  | .array items =>
    cases v with
    | array actual => exact .array fun i c hc => alike_restrictItems items i c hc actual
    | _ => exact .same _ _
  | .matcher _ => exact .same _ v
  | .extraction _ => exact .same _ v
  | .dual .both stub _ =>
    refine alike_restrictBranch stub (fun c hc _ _ h => ?_) v
    exact .dual hc h
  | .dual .stubOnly stub _ =>
    refine alike_restrictBranch stub (fun c hc _ _ h => ?_) v
    exact .dual hc h
  | .dual .testOnly _ test =>
    refine alike_restrictBranch test (fun c hc _ _ h => ?_) v
    exact .dual hc h
termination_by structural c

theorem alike_restrictField (fields : List (String × Constraint)) (f : String × Constraint)
    (hf : f ∈ fields) (v : Json) :
    ∃ w, restrictField f.1 v fields = some w ∧ f.2.AlikeFor v w := by
  match fields with
  | [] => cases hf
  | (k, c) :: rest =>
    rw [restrictField]
    -- under a name that comes again nothing is taken away, which is alike for all that is declared
    by_cases hrest : f.1 ∈ rest.map (·.1)
    · by_cases hk : k = f.1
      · exact ⟨v, by rw [if_pos hk, if_pos hrest], .same _ v⟩
      · rw [if_neg hk]
        refine alike_restrictField rest f ?_ v
        refine (List.mem_cons.mp hf).resolve_left ?_
        rintro rfl
        exact hk rfl
    · obtain rfl | hf := List.mem_cons.mp hf
      · exact ⟨c.restrict v, by rw [if_pos rfl, if_neg hrest], alike_restrict c v⟩
      · exact absurd (List.mem_map_of_mem hf) hrest
termination_by structural fields

theorem alike_restrictItems (items : List Constraint) (i : Nat) (c : Constraint)
    (hc : items[i]? = some c) (actual : List Json) :
    c.AlikeFor (actual[i]?.getD .null) ((restrictItems items actual)[i]?.getD .null) := by
  match items, i, actual with
  | [], _, _ => cases hc
  | _ :: _, _, [] => exact .same _ _
  | d :: _, 0, v :: _ =>
    rw [← Option.some.inj hc]
    exact alike_restrict d v
  | _ :: rest, i + 1, _ :: actual => exact alike_restrictItems rest i c hc actual
termination_by structural items

theorem alike_restrictBranch (branch : Option Constraint) {d : Constraint}
    (hbranch : ∀ c, branch = some c → ∀ {v w}, c.AlikeFor v w → d.AlikeFor v w) (v : Json) :
    d.AlikeFor v (restrictBranch branch v) := by
  match branch with
  | none => exact .same d v
  | some c => exact hbranch c rfl (alike_restrict c v)
termination_by structural branch

end

theorem restrictField_undeclared {fields : List (String × Constraint)} {key : String}
    (h : key ∉ fields.map (·.1)) (v : Json) : restrictField key v fields = none := by
  induction fields with
  | nil => rfl
  | cons f rest ih =>
    rw [List.map_cons, List.mem_cons, not_or] at h
    rw [restrictField, if_neg (Ne.symm h.1), ih h.2]

/-- A field that is not declared is taken away. -/
theorem restrict_undeclared {fields : List (String × Constraint)} {key : String}
    (h : key ∉ fields.map (·.1)) (before : List (String × Json)) (v : Json)
    (after : List (String × Json)) :
    (object fields).restrict (.object (before ++ (key, v) :: after))
      = (object fields).restrict (.object (before ++ after)) := by
  rw [restrict, restrict, List.filterMap_append, List.filterMap_append,
    List.filterMap_cons_none (by rw [restrictField_undeclared h]; rfl)]

/-- Items behind the declared ones are taken away. -/
theorem restrictItems_append {items : List Constraint} {actual : List Json}
    (h : items.length ≤ actual.length) (more : List Json) :
    restrictItems items (actual ++ more) = restrictItems items actual := by
  induction items generalizing actual with
  | nil => rfl
  | cons c rest ih =>
    cases actual with
    | nil => cases h
    | cons v actual =>
      rw [List.cons_append, restrictItems, restrictItems, ih (Nat.le_of_succ_le_succ h)]

/-! ## What is absent -/

/-- An absent field is like null. -/
theorem alike_absentField (fields : List (String × Constraint)) (actual : List (String × Json))
    (key : String) :
    (object fields).AlikeFor (.object actual) (.object (actual ++ [(key, .null)])) := by
  refine .object fun f _ => ?_
  have hnull : ([(key, Json.null)].lookup f.1).getD .null = .null := by
    rw [List.lookup_cons]
    split <;> rfl
  rw [List.lookup_append]
  cases actual.lookup f.1 with
  | none =>
    rw [Option.none_or, hnull]
    exact .same _ _
  | some v => exact .same _ _

/-- An absent item is like null. -/
theorem alike_absentItem (items : List Constraint) (actual : List Json) :
    (array items).AlikeFor (.array actual) (.array (actual ++ [.null])) := by
  refine .array fun i c _ => ?_
  have hsame : (actual ++ [Json.null])[i]?.getD .null = actual[i]?.getD .null := by
    rw [List.getElem?_append]
    split
    · rfl
    · rename_i hlength
      rw [List.getElem?_eq_none (Nat.not_lt.mp hlength)]
      cases i - actual.length <;> rfl
  rw [hsame]
  exact .same _ _

/-- Comparing depends only on what is declared. A value is judged like what is left of it when it is
restricted to that, so that values of which the same is left, or which are alike as far as anything
is declared about them, get the same verdict or the same error. Fields under other names and items
behind the declared ones are not left, and a declared field or item that is absent is judged as
null. -/
theorem compare_declared :
    (∀ (c : Constraint) v, c.compare v = c.compare (c.restrict v))
      ∧ (∀ (c : Constraint) v w, c.restrict v = c.restrict w ∨ c.AlikeFor v w →
        c.compare v = c.compare w)
      ∧ (∀ fields key, key ∉ fields.map (·.1) → ∀ before v after,
        (object fields).restrict (.object (before ++ (key, v) :: after))
          = (object fields).restrict (.object (before ++ after)))
      ∧ (∀ items actual, items.length ≤ actual.length → ∀ more,
        (array items).restrict (.array (actual ++ more)) = (array items).restrict (.array actual))
      ∧ (∀ fields actual key, (object fields).compare (.object actual)
        = (object fields).compare (.object (actual ++ [(key, .null)])))
      ∧ ∀ items actual, (array items).compare (.array actual)
        = (array items).compare (.array (actual ++ [.null])) := by
  have hrestrict (c : Constraint) (v : Json) : c.compare v = c.compare (c.restrict v) :=
    (alike_restrict c v).compare_eq
  refine ⟨hrestrict, ?_, ?_, ?_, ?_, ?_⟩
  · rintro c v w (hsame | halike)
    · rw [hrestrict c v, hsame, ← hrestrict c w]
    · exact halike.compare_eq
  · exact fun fields key h => restrict_undeclared h
  · exact fun items actual h more => congrArg Json.array (restrictItems_append h more)
  · exact fun fields actual key => (alike_absentField fields actual key).compare_eq
  · exact fun items actual => (alike_absentItem items actual).compare_eq

/-- Other fields and further items, in an object and in a side in an array in it. -/
theorem compare_declared_nested :
    let c : Constraint := .object [("a", .array [.dual .both
      (some (.object [("x", .matcher .uuid4)])) none])]
    let v : Json := .object [("b", .null), ("a", .array [.object [("y", .null),
      ("x", .string "s")], .bool true])]
    let w : Json := .object [("a", .array [.object [("x", .string "s")]])]
    v ≠ w ∧ c.restrict v = c.restrict w ∧ c.compare v = c.compare w :=
  ⟨by decide, by decide, compare_declared.2.1 _ _ _ (.inl (by decide))⟩

end HttpContract.Constraint
