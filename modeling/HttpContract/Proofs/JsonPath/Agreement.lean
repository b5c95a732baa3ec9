import HttpContract.JsonPath.Select

/-!
# JsonPath — what a query reads of a document

A query may start at the root in several places, since there are queries in its conditions. If each
of them goes to one of some fields of a record first, the query selects the same values in documents
that have the same values in these fields (`Query.select_agree`).
-/

namespace HttpContract.JsonPath

/-! ## The fields that a query reads -/

section Reading

variable (record : String) (fields : List String)

/-- The value of a field of a record in a document. -/
def fieldOf? (name : String) (document : Json) : Option Json :=
  (document.get? record).bind (·.get? name)

/-- Documents have the same values in some fields of a record. -/
def AgreeOn (a b : Json) : Prop :=
  ∀ name ∈ fields, fieldOf? record name a = fieldOf? record name b

/-- Whether segments go to one of some fields of a record first. -/
def goesTo : List Segment → Bool
  | .child [.name first] :: .child [.name second] :: _ => first = record && fields.contains second
  | _ => false

mutual

/-- Whether a query reads some fields of a record only, wherever it starts at the root. -/
def Query.reads : Query → Bool
  | .ofRoot segments => goesTo record fields segments && segmentsRead segments
  | .ofCurrent segments => segmentsRead segments
termination_by structural q => q

/-- Whether the queries in segments do. -/
def segmentsRead : List Segment → Bool
  | [] => true
  | segment :: rest => segment.reads && segmentsRead rest
termination_by structural segments => segments

/-- Whether the queries in a segment do. -/
def Segment.reads : Segment → Bool
  | .child selectors => selectorsRead selectors
  | .descendant selectors => selectorsRead selectors
termination_by structural segment => segment

/-- Whether the queries in selectors do. -/
def selectorsRead : List Selector → Bool
  | [] => true
  | selector :: rest => selector.reads && selectorsRead rest
termination_by structural selectors => selectors

/-- Whether the queries in a selector do. -/
def Selector.reads : Selector → Bool
  | .filter condition => condition.reads
  | _ => true
termination_by structural selector => selector

/-- Whether the queries in a condition do. -/
def Condition.reads : Condition → Bool
  | .or left right => left.reads && right.reads
  | .and left right => left.reads && right.reads
  | .not condition => condition.reads
  | .exists query => query.reads
  | .compare _ left right => left.reads && right.reads
  | .matches _ text pattern => text.reads && pattern.reads
termination_by structural condition => condition

/-- Whether the queries in an operand do. -/
def Operand.reads : Operand → Bool
  | .literal _ => true
  | .node query => query.reads
  | .length operand => operand.reads
  | .count query => query.reads
  | .value query => query.reads
termination_by structural operand => operand

end

end Reading

/-! ## Agreement -/

variable {record : String} {fields : List String} {a b : Json}

theorem select_name [Library] (root v : Json) (name : String) (rest : List Segment) :
    throughSegments root (.child [.name name] :: rest) [v]
      = throughSegments root rest (v.get? name).toList := by
  simp [throughSegments, Segment.select, selectAll, Selector.select]

/-- Two names lead to a field of a record. -/
theorem throughSegments_field [Library] (root v : Json) (first second : String)
    (rest : List Segment) :
    throughSegments root (.child [.name first] :: .child [.name second] :: rest) [v]
      = throughSegments root rest (fieldOf? first second v).toList := by
  rw [select_name, fieldOf?]
  cases v.get? first with
  | none => simp [throughSegments, Segment.select]
  | some w => exact select_name root w second rest

/-- Segments that go to a field lead to the same values from the roots of documents that agree. -/
theorem throughSegments_root [Library] (h : AgreeOn record fields a b) {segments : List Segment}
    (hgoes : goesTo record fields segments = true) (root : Json) :
    throughSegments root segments [a] = throughSegments root segments [b] := by
  unfold goesTo at hgoes
  split at hgoes
  · rename_i first second rest
    rw [Bool.and_eq_true, decide_eq_true_eq, List.contains_iff_mem] at hgoes
    obtain ⟨rfl, hsecond⟩ := hgoes
    rw [throughSegments_field, throughSegments_field, h second hsecond]
  · cases hgoes

mutual

/-- A query that reads some fields only selects alike in documents that agree on them. -/
theorem Query.select_agree [Library] (h : AgreeOn record fields a b) (q : Query)
    (hreads : q.reads record fields = true) (current : Json) :
    q.select a current = q.select b current := by
  match q with
  | .ofRoot segments =>
    rw [Query.reads, Bool.and_eq_true] at hreads
    calc throughSegments a segments [a]
        = throughSegments b segments [a] := throughSegments_agree h segments hreads.2 [a]
      _ = throughSegments b segments [b] := throughSegments_root h hreads.1 b
  | .ofCurrent segments => exact throughSegments_agree h segments hreads [current]
termination_by structural q

theorem throughSegments_agree [Library] (h : AgreeOn record fields a b) (segments : List Segment)
    (hreads : segmentsRead record fields segments = true) (nodes : List Json) :
    throughSegments a segments nodes = throughSegments b segments nodes := by
  match segments with
  | [] => rfl
  | segment :: rest =>
    rw [segmentsRead, Bool.and_eq_true] at hreads
    rw [throughSegments, throughSegments, Segment.select_agree h segment hreads.1,
      throughSegments_agree h rest hreads.2]
termination_by structural segments

theorem Segment.select_agree [Library] (h : AgreeOn record fields a b) (segment : Segment)
    (hreads : segment.reads record fields = true) (nodes : List Json) :
    segment.select a nodes = segment.select b nodes := by
  match segment with
  | .child selectors =>
    simp only [Segment.select, selectAll_agree h selectors hreads]
  | .descendant selectors =>
    simp only [Segment.select, selectAll_agree h selectors hreads]
termination_by structural segment

theorem selectAll_agree [Library] (h : AgreeOn record fields a b) (selectors : List Selector)
    (hreads : selectorsRead record fields selectors = true) (v : Json) :
    selectAll a selectors v = selectAll b selectors v := by
  match selectors with
  | [] => rfl
  | selector :: rest =>
    rw [selectorsRead, Bool.and_eq_true] at hreads
    rw [selectAll, selectAll, Selector.select_agree h selector hreads.1,
      selectAll_agree h rest hreads.2]
termination_by structural selectors

theorem Selector.select_agree [Library] (h : AgreeOn record fields a b) (selector : Selector)
    (hreads : selector.reads record fields = true) (v : Json) :
    selector.select a v = selector.select b v := by
  match selector with
  | .name _ => rfl
  | .wildcard => rfl
  | .index _ => cases v <;> rfl
  | .slice _ => cases v <;> rfl
  | .filter condition => simp only [Selector.select, Condition.holds_agree h condition hreads]
termination_by structural selector

theorem Condition.holds_agree [Library] (h : AgreeOn record fields a b) (condition : Condition)
    (hreads : condition.reads record fields = true) (current : Json) :
    condition.holds a current = condition.holds b current := by
  match condition with
  | .or left right =>
    rw [Condition.reads, Bool.and_eq_true] at hreads
    rw [Condition.holds, Condition.holds, Condition.holds_agree h left hreads.1,
      Condition.holds_agree h right hreads.2]
  | .and left right =>
    rw [Condition.reads, Bool.and_eq_true] at hreads
    rw [Condition.holds, Condition.holds, Condition.holds_agree h left hreads.1,
      Condition.holds_agree h right hreads.2]
  | .not condition =>
    rw [Condition.holds, Condition.holds, Condition.holds_agree h condition hreads]
  | .exists query =>
    rw [Condition.holds, Condition.holds, Query.select_agree h query hreads]
  | .compare op left right =>
    rw [Condition.reads, Bool.and_eq_true] at hreads
    rw [Condition.holds, Condition.holds, Operand.value?_agree h left hreads.1,
      Operand.value?_agree h right hreads.2]
  | .matches whole text pattern =>
    rw [Condition.reads, Bool.and_eq_true] at hreads
    rw [Condition.holds, Condition.holds, Operand.value?_agree h text hreads.1,
      Operand.value?_agree h pattern hreads.2]
termination_by structural condition

theorem Operand.value?_agree [Library] (h : AgreeOn record fields a b) (operand : Operand)
    (hreads : operand.reads record fields = true) (current : Json) :
    operand.value? a current = operand.value? b current := by
  match operand with
  | .literal _ => rfl
  | .node query => simp only [Operand.value?, Query.select_agree h query hreads]
  | .length operand => rw [Operand.value?, Operand.value?, Operand.value?_agree h operand hreads]
  | .count query => rw [Operand.value?, Operand.value?, Query.select_agree h query hreads]
  | .value query => simp only [Operand.value?, Query.select_agree h query hreads]
termination_by structural operand

end

end HttpContract.JsonPath
