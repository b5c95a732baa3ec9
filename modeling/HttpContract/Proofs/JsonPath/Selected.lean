import HttpContract.JsonPath.Select
import HttpContract.Proofs.Json.Reread

/-!
# JsonPath — what queries select

A query selects parts of the values that it starts from: what passes from values to their parts
(`PassesDown`) holds of all that is selected if it holds of the document (`PassesDown.select`).
-/

namespace HttpContract.JsonPath

/-- What holds of all parts of a value if it holds of the value. -/
def PassesDown (P : Json → Prop) : Prop := ∀ v, P v → ∀ w ∈ children v, P w

section PassesDown

variable {P : Json → Prop}

mutual

theorem PassesDown.withDescendants (hP : PassesDown P) (v : Json) (hv : P v) :
    ∀ w ∈ withDescendants v, P w :=
  match v with
  | .array items => by
    intro w hw
    rcases List.mem_cons.mp hw with rfl | hw
    · exact hv
    · exact hP.descendantsOfItems items (hP _ hv) w hw
  | .object fields => by
    intro w hw
    rcases List.mem_cons.mp hw with rfl | hw
    · exact hv
    · refine hP.descendantsOfFields fields (fun f hf => hP _ hv _ ?_) w hw
      exact List.mem_map_of_mem hf
  | .null | .bool _ | .number _ | .string _ => by
    intro w hw
    obtain rfl := List.mem_singleton.mp hw
    exact hv
termination_by structural v

theorem PassesDown.descendantsOfItems (hP : PassesDown P) (items : List Json)
    (hitems : ∀ v ∈ items, P v) : ∀ w ∈ descendantsOfItems items, P w :=
  match items with
  | [] => nofun
  | v :: rest => by
    intro w hw
    rcases List.mem_append.mp hw with hw | hw
    · exact hP.withDescendants v (hitems v List.mem_cons_self) w hw
    · exact hP.descendantsOfItems rest (fun x hx => hitems x (List.mem_cons_of_mem _ hx)) w hw
termination_by structural items

theorem PassesDown.descendantsOfFields (hP : PassesDown P) (fields : List (String × Json))
    (hfields : ∀ f ∈ fields, P f.2) : ∀ w ∈ descendantsOfFields fields, P w :=
  match fields with
  | [] => nofun
  | (k, v) :: rest => by
    intro w hw
    rcases List.mem_append.mp hw with hw | hw
    · exact hP.withDescendants v (hfields (k, v) List.mem_cons_self) w hw
    · exact hP.descendantsOfFields rest (fun f hf => hfields f (List.mem_cons_of_mem _ hf)) w hw
termination_by structural fields

end

theorem mem_of_itemAt? {i : Int} {items : List Json} {w : Json} (h : itemAt? i items = some w) :
    w ∈ items := by
  unfold itemAt? at h
  simp only at h
  split at h
  · cases h
  · exact List.mem_of_getElem? h

theorem mem_of_slice {s : Slice} {items : List Json} {w : Json} (h : w ∈ s.items items) :
    w ∈ items := by
  unfold Slice.items at h
  simp only at h
  split at h
  · cases h
  split at h
  all_goals
    obtain ⟨k, -, hk⟩ := List.mem_filterMap.mp h
    exact List.mem_of_getElem? hk

/-- A selector chooses children. -/
theorem mem_children_of_select [Library] {root v w : Json} {selector : Selector}
    (h : w ∈ selector.select root v) : w ∈ children v := by
  cases selector with
  | name key =>
    cases v with
    | object fields =>
      have hkey : fields.lookup key = some w := Option.mem_toList.mp h
      exact List.mem_map.mpr ⟨(key, w), mem_of_lookup hkey, rfl⟩
    | _ => cases h
  | wildcard => exact h
  | index i =>
    cases v with
    | array items => exact mem_of_itemAt? (Option.mem_toList.mp h)
    | _ => cases h
  | slice bounds =>
    cases v with
    | array items => exact mem_of_slice h
    | _ => cases h
  | filter condition => exact List.mem_of_mem_filter h

theorem PassesDown.selectAll [Library] (hP : PassesDown P) {root v : Json} (hv : P v)
    (selectors : List Selector) : ∀ w ∈ selectAll root selectors v, P w := by
  induction selectors with
  | nil => exact nofun
  | cons selector rest ih =>
    intro w hw
    rcases List.mem_append.mp hw with hw | hw
    · exact hP v hv w (mem_children_of_select hw)
    · exact ih w hw

theorem PassesDown.segment [Library] (hP : PassesDown P) {root : Json} {nodes : List Json}
    (hnodes : ∀ v ∈ nodes, P v) (segment : Segment) :
    ∀ w ∈ segment.select root nodes, P w := by
  intro w hw
  cases segment with
  | child selectors =>
    obtain ⟨v, hv, hw⟩ := List.mem_flatMap.mp hw
    exact hP.selectAll (hnodes v hv) selectors w hw
  | descendant selectors =>
    obtain ⟨v, hv, hw⟩ := List.mem_flatMap.mp hw
    obtain ⟨u, hu, hv⟩ := List.mem_flatMap.mp hv
    exact hP.selectAll (hP.withDescendants u (hnodes u hu) v hv) selectors w hw

theorem PassesDown.throughSegments [Library] (hP : PassesDown P) {root : Json} {nodes : List Json}
    (hnodes : ∀ v ∈ nodes, P v) (segments : List Segment) :
    ∀ w ∈ throughSegments root segments nodes, P w := by
  induction segments generalizing nodes with
  | nil => exact hnodes
  | cons segment rest ih => exact ih (hP.segment hnodes segment)

/-- A query selects parts of the values that it starts from. -/
theorem PassesDown.select [Library] (hP : PassesDown P) {root current : Json} (hroot : P root)
    (hcurrent : P current) (q : Query) : ∀ w ∈ q.select root current, P w := by
  cases q with
  | ofRoot segments => exact hP.throughSegments (by simpa using hroot) segments
  | ofCurrent segments => exact hP.throughSegments (by simpa using hcurrent) segments

end PassesDown

theorem passesDown_distinct : PassesDown Json.Distinct := by
  intro v hv w hw
  cases hv with
  | array hitems => exact hitems w hw
  | object _ hfields =>
    obtain ⟨f, hf, rfl⟩ := List.mem_map.mp hw
    exact hfields f hf
  | null | bool | number | string => cases hw

end HttpContract.JsonPath
