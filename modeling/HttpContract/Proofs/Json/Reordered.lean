import Mathlib.Logic.Relation
import HttpContract.Proofs.Json.Agreement

/-!
# Json — values with their fields in another order

`Reorder` puts the fields of one object in another order, wherever in a value the object stands.
One such step leaves the agreements of the value as they are (`Reorder.agrees_eq`), and so does any
number of them on both sides (`agrees_congruence`).
-/

namespace HttpContract.Json

open Relation (ReflTransGen)

variable {v v' w : Json}

/-- The fields of one object in a value are put in another order. -/
inductive Reorder : Json → Json → Prop where
  | fields {fs gs : List (String × Json)} (h : fs.Perm gs) : Reorder (.object fs) (.object gs)
  | item {before behind : List Json} {v w : Json} (h : Reorder v w) :
    Reorder (.array (before ++ v :: behind)) (.array (before ++ w :: behind))
  | field {before behind : List (String × Json)} {key : String} {v w : Json} (h : Reorder v w) :
    Reorder (.object (before ++ (key, v) :: behind)) (.object (before ++ (key, w) :: behind))

theorem Reorder.distinct (h : Reorder v w) (hv : v.Distinct) : w.Distinct := by
  induction h with
  | fields hperm =>
    cases hv with
    | object hkeys hfs =>
      exact .object ((hperm.map _).nodup hkeys) fun f hf => hfs f (hperm.mem_iff.mpr hf)
  | item _ ih =>
    cases hv with
    | array hvs =>
      simp only [List.forall_mem_append, List.forall_mem_cons] at hvs
      refine .array ?_
      simp only [List.forall_mem_append, List.forall_mem_cons]
      exact ⟨hvs.1, ih hvs.2.1, hvs.2.2⟩
  | field _ ih =>
    cases hv with
    | object hkeys hfs =>
      simp only [List.forall_mem_append, List.forall_mem_cons] at hfs
      refine .object ?_ ?_
      · simpa only [List.map_append, List.map_cons] using hkeys
      · simp only [List.forall_mem_append, List.forall_mem_cons]
        exact ⟨hfs.1, ih hfs.2.1, hfs.2.2⟩

theorem agreesItems_replace (h : ∀ w, v.agrees w = v'.agrees w) (before behind ws : List Json) :
    agreesItems (before ++ v :: behind) ws = agreesItems (before ++ v' :: behind) ws := by
  induction before generalizing ws with
  | nil => cases ws <;> simp only [List.nil_append, agreesItems, h]
  | cons _ _ ih => cases ws <;> simp only [List.cons_append, agreesItems, ih]

/-- A step does not change what a value agrees with. -/
theorem Reorder.agrees_eq (h : Reorder v v') (w : Json) : v.agrees w = v'.agrees w := by
  induction h generalizing w with
  | fields hperm =>
    cases w with
    | object gs =>
      rw [Bool.eq_iff_iff, agrees_object, agrees_object, hperm.length_eq]
      simp only [hperm.mem_iff]
    | _ => rfl
  | item _ ih =>
    cases w with
    | array ws => exact agreesItems_replace ih _ _ ws
    | _ => rfl
  | field _ ih =>
    cases w with
    | object gs =>
      rw [Bool.eq_iff_iff, agrees_object, agrees_object]
      simp only [List.length_append, List.length_cons, List.forall_mem_append,
        List.forall_mem_cons, ih]
    | _ => rfl

theorem distinct_of_reordered (h : ReflTransGen Reorder v v') (hv : v.Distinct) :
    v'.Distinct := by
  induction h with
  | refl => exact hv
  | tail _ hstep ih => exact hstep.distinct ih

theorem agrees_of_reordered (h : ReflTransGen Reorder v v') (w : Json) :
    v'.agrees w = v.agrees w := by
  induction h with
  | refl => rfl
  | tail _ hstep ih => rw [← hstep.agrees_eq, ih]

/-- Where no object has a field twice, a value agrees with itself, two values agree one way if they
do the other, and the fields of all objects in them may stand in any order. -/
theorem agrees_congruence (hv : v.Distinct) (hw : w.Distinct) :
    v.agrees v = true ∧ v.agrees w = w.agrees v
      ∧ ∀ v' w', ReflTransGen Reorder v v' → ReflTransGen Reorder w w' →
        v'.agrees w' = v.agrees w := by
  refine ⟨hv.agrees_self, hv.agrees_comm hw, fun v' w' hv' hw' => ?_⟩
  calc v'.agrees w'
      = v.agrees w' := agrees_of_reordered hv' w'
    _ = w'.agrees v := hv.agrees_comm (distinct_of_reordered hw' hw)
    _ = w.agrees v := agrees_of_reordered hw' v
    _ = v.agrees w := hw.agrees_comm hv

/-- A parcel with one line. -/
def parcel : Json :=
  .object [("id", .string "a7"),
    ("lines", .array [.object [("count", ofInt 2), ("note", .null)]])]

/-- The same with all fields the other way round. -/
def parcelTurned : Json :=
  .object [("lines", .array [.object [("note", .null), ("count", ofInt 2)]]),
    ("id", .string "a7")]

theorem agrees_congruence_parcel :
    parcel.Distinct ∧ ReflTransGen Reorder parcel parcelTurned
      ∧ parcelTurned.agrees parcel = true := by
  have hline : (object [("count", ofInt 2), ("note", .null)]).Distinct :=
    .object (by decide) (by simp [ofInt, Distinct.number, Distinct.null])
  have hparcel : parcel.Distinct :=
    .object (by decide) (by simp [Distinct.string, Distinct.array, hline])
  have hturned : ReflTransGen Reorder parcel parcelTurned := by
    refine .tail (.single (.fields (.swap ..))) (@Reorder.field [] _ _ _ _ ?_)
    exact @Reorder.item [] _ _ _ (.fields (.swap ..))
  have hcongruence := agrees_congruence hparcel hparcel
  refine ⟨hparcel, hturned, ?_⟩
  rw [hcongruence.2.2 _ _ hturned .refl]
  exact hcongruence.1

end HttpContract.Json
