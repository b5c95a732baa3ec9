import HttpContract.Proofs.Json.Agreement

/-!
# Json — three values of which two and two agree

Two values that agree with a third one agree with each other as long as the numbers in them do. They
are `Parted` if somewhere in them, in the same place, two words that differ are compared with a
double that both are rounded to. Values that are parted disagree, and no others do
(`agrees_trans_iff`).
-/

namespace HttpContract.Json

/-- Somewhere in three values, two words that differ stand where the second value has a large
double. -/
inductive Parted : Json → Json → Json → Prop where
  | number {m x n : Number} (h : m.Parted x n) : Parted (.number m) (.number x) (.number n)
  | item {vs ws us : List Json} {i : Nat} {v w u : Json} (hv : vs[i]? = some v)
    (hw : ws[i]? = some w) (hu : us[i]? = some u) (h : Parted v w u) :
    Parted (.array vs) (.array ws) (.array us)
  | field {fs gs hs : List (String × Json)} {key : String} {v w u : Json} (hv : (key, v) ∈ fs)
    (hw : gs.lookup key = some w) (hu : hs.lookup key = some u) (h : Parted v w u) :
    Parted (.object fs) (.object gs) (.object hs)

theorem Parted.not_agrees {v w u : Json} (h : Parted v w u) : ¬ v.agrees u = true := by
  induction h with
  | number h =>
    obtain ⟨hne, -⟩ := h
    exact fun h => hne (eq_of_beq h)
  | item hv _ hu _ ih =>
    intro h
    obtain ⟨hi, rfl⟩ := List.getElem?_eq_some_iff.mp hv
    obtain ⟨hi', rfl⟩ := List.getElem?_eq_some_iff.mp hu
    exact ih ((agreesItems_iff.mp h).get hi hi')
  | field hv _ hu _ ih =>
    intro h
    obtain ⟨u, hu', hagrees⟩ := (agrees_object.mp h).2 _ hv
    rw [hu] at hu'
    cases hu'
    exact ih hagrees

mutual

theorem agrees_of_not_parted (v : Json) {w u : Json} (hvw : v.agrees w = true)
    (hwu : w.agrees u = true) (h : ¬ Parted v w u) : v.agrees u = true := by
  match v with
  | .null =>
    cases w with
    | null => exact hwu
    | _ => cases hvw
  | .bool a =>
    cases w with
    | bool b =>
      obtain rfl : a = b := eq_of_beq hvw
      exact hwu
    | _ => cases hvw
  | .string s =>
    cases w with
    | string t =>
      obtain rfl : s = t := eq_of_beq hvw
      exact hwu
    | _ => cases hvw
  | .number m =>
    cases w with
    | number x =>
      cases u with
      | number n => exact (Number.same_trans_iff hvw hwu).mpr (mt .number h)
      | _ => cases hwu
    | _ => cases hvw
  | .array vs =>
    cases w with
    | array ws =>
      cases u with
      | array us =>
        exact agreesItems_of_not_parted vs hvw hwu fun _ _ _ _ hv hw hu hparted =>
          h (.item hv hw hu hparted)
      | _ => cases hwu
    | _ => cases hvw
  | .object fs =>
    cases w with
    | object gs =>
      cases u with
      | object hs =>
        rw [agrees, Bool.and_eq_true, beq_iff_eq] at hvw hwu ⊢
        exact ⟨hvw.1.trans hwu.1, agreesFields_of_not_parted fs hvw.2 hwu.2
          fun _ _ _ _ hv hw hu hparted => h (.field hv hw hu hparted)⟩
      | _ => cases hwu
    | _ => cases hvw
termination_by structural v

theorem agreesItems_of_not_parted (vs : List Json) {ws us : List Json}
    (hvs : agreesItems vs ws = true) (hws : agreesItems ws us = true)
    (h : ∀ (i : Nat) (v w u : Json), vs[i]? = some v → ws[i]? = some w → us[i]? = some u →
      ¬ Parted v w u) :
    agreesItems vs us = true := by
  match vs with
  | [] =>
    cases ws with
    | nil => exact hws
    | cons => cases hvs
  | v :: vs =>
    cases ws with
    | nil => cases hvs
    | cons w ws =>
      cases us with
      | nil => cases hws
      | cons u us =>
        rw [agreesItems, Bool.and_eq_true] at hvs hws ⊢
        have hhead : ¬ Parted v w u := h 0 v w u rfl rfl rfl
        exact ⟨agrees_of_not_parted v hvs.1 hws.1 hhead,
          agreesItems_of_not_parted vs hvs.2 hws.2 fun i v w u => h (i + 1) v w u⟩
termination_by structural vs

theorem agreesFields_of_not_parted (fs : List (String × Json)) {gs hs : List (String × Json)}
    (hfs : agreesFields fs gs = true) (hgs : agreesFields gs hs = true)
    (h : ∀ (key : String) (v w u : Json), (key, v) ∈ fs → gs.lookup key = some w →
      hs.lookup key = some u → ¬ Parted v w u) :
    agreesFields fs hs = true := by
  match fs with
  | [] => rfl
  | (key, v) :: rest =>
    have hfields := agreesFields_iff.mp hfs
    obtain ⟨w, hw, hvw⟩ := hfields (key, v) (by simp)
    obtain ⟨u, hu, hwu⟩ := agreesFields_iff.mp hgs (key, w) (mem_of_lookup hw)
    have hhead : ¬ Parted v w u := h key v w u (by simp) hw hu
    have htail := agreesFields_of_not_parted rest
      (agreesFields_iff.mpr fun f hf => hfields f (by simp [hf])) hgs
      fun key v w u hv => h key v w u (List.mem_cons_of_mem _ hv)
    have hvu : v.agrees u = true := agrees_of_not_parted v hvw hwu hhead
    simp only at hu
    simp only [agreesFields, hu, hvu, htail, Bool.and_self]
termination_by structural fs

end

/-- If a value agrees with a second one and that with a third one, the first agrees with the third
unless they are parted by two words that differ and the double that both are rounded to. -/
theorem agrees_trans_iff {v w u : Json} (hvw : v.agrees w = true) (hwu : w.agrees u = true) :
    v.agrees u = true ↔ ¬ Parted v w u :=
  ⟨fun h hparted => hparted.not_agrees h, agrees_of_not_parted v hvw hwu⟩

/-- The double `2 ^ 53`. -/
def largeDouble : Json := .number (.float (Binary64.ofInt 9007199254740992))

/-- Both `2 ^ 53` and `2 ^ 53 + 1` agree with the double, but not with each other. -/
theorem agrees_trans_iff_largeDouble :
    (ofInt 9007199254740992).agrees largeDouble = true
      ∧ largeDouble.agrees (ofInt 9007199254740993) = true
      ∧ ¬ (ofInt 9007199254740992).agrees (ofInt 9007199254740993) = true := by
  have hfirst : (ofInt 9007199254740992).agrees largeDouble = true := by decide +kernel
  have hsecond : largeDouble.agrees (ofInt 9007199254740993) = true := by decide +kernel
  have hparted : Parted (ofInt 9007199254740992) largeDouble (ofInt 9007199254740993) :=
    .number (.words (by decide) (by decide +kernel))
  exact ⟨hfirst, hsecond, fun h => (agrees_trans_iff hfirst hsecond).mp h hparted⟩

end HttpContract.Json
