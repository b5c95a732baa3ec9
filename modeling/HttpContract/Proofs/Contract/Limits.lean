import HttpContract.Library.Simple
import HttpContract.Admin.View
import HttpContract.Proofs.Constraint.Drawn
import HttpContract.Proofs.Contract.Growth
import HttpContract.Proofs.Contract.Roundtrip
import HttpContract.Proofs.Script.Unambiguous

/-!
# Contract — canonical scripts within limits

Limits count what is in a text, and the canonical script of a contract is another text than the one
that it was compiled from: defaults are written out, options are written, query values are written
with their names, and every field has its line. So it is read again, as usual or with two-sided
values bound to one side, by just those limits that it keeps within itself
(`Canonical.compile_iff`, `Canonical.derive_iff`), and it may not keep within those of the text. But
it keeps within `Limits.enlarged` (`allow_enlarged`).
-/

namespace HttpContract

open Constraint (Binds binds_standard layout)
open Script (Bindings Expression Limits Measure Scans)
open String (utf8Len utf8Len_append utf8Len_cons utf8Len_nil utf8ByteSize_ofList)

/-- Limits that allow for what is written in addition when a text that keeps within the limits is
compiled: two levels, six expressions for each one and five for defaults, a line for each
expression that is written, and escapes. -/
def Script.Limits.enlarged (limits : Limits) : Limits where
  size := (4 * limits.depth + 448) * (6 * limits.nodes + 5) + 36 * limits.size
  depth := limits.depth + 2
  nodes := 6 * limits.nodes + 5
  noTime := false

/-! ## Fresh identifiers -/

namespace Constraint.Uuid

theorem size_of_admits {p : Place} {c : Char} (h : p.admits c = true) : c.utf8Size = 1 := by
  rw [Char.utf8Size_eq_one_iff]
  cases p with
  | hyphen =>
    obtain rfl := of_decide_eq_true h
    decide
  | version =>
    obtain rfl := of_decide_eq_true h
    decide
  | variant =>
    simp only [Place.admits, List.contains_iff_mem, List.mem_cons, List.not_mem_nil, or_false] at h
    rcases h with rfl | rfl | rfl | rfl <;> decide
  | digit =>
    simp only [Place.admits, isHexDigit, Char.isDigit, Bool.or_eq_true, Bool.and_eq_true,
      decide_eq_true_eq] at h
    rcases h with h | h
    · exact UInt32.le_trans h.2 (by decide)
    · exact UInt32.le_trans h.2 (by decide)

theorem size_of_fitPlaces {ps : List Place} {cs : List Char} (h : fitPlaces ps cs = true) :
    utf8Len cs = ps.length := by
  induction ps generalizing cs with
  | nil =>
    cases cs with
    | nil => rfl
    | cons => cases h
  | cons p ps ih =>
    cases cs with
    | nil => cases h
    | cons c cs =>
      simp only [fitPlaces, Bool.and_eq_true] at h
      rw [utf8Len_cons, ih h.2, size_of_admits h.1, List.length_cons]

/-- A drawn identifier is a short text. -/
theorem size_draw (draws : Draws) : (draw.run draws).1.utf8ByteSize ≤ Measure.shortSize := by
  have hfit := size_of_fitPlaces (yields_draw draws)
  rw [String.utf8Len_toList] at hfit
  exact hfit.le

end Constraint.Uuid

namespace Contract

variable {sides : Sidedness → Prop} {s : Sidedness} {bindings : Bindings} {limits : Limits}
  {c : Contract}

/-! ## Reading canonical scripts -/

theorem Canonical.run_script_iff [Library] (h : c.Canonical sides) (hbinds : Binds bindings s)
    (hmodule : bindings.lookup "module" = none) (htime : limits.noTime = false) :
    (∃ exported, Script.run limits bindings c.script = .ok exported)
      ↔ limits.Allow c.script c.toConstraint.expression := by
  have hscan : Scans c.scriptChars _ ['\n'] :=
    scans_assignment (Constraint.prints_chars h.scripted (some 0))
  rw [← String.toList_ofList (l := c.scriptChars)] at hscan
  exact Script.run_assigned_iff hscan Script.ends_newline
    (Constraint.value_expression hbinds h.scripted) hmodule htime

/-- A canonical script is compiled by just those limits that it keeps within. -/
theorem Canonical.compileWith_iff [Library] (h : c.Canonical sides) (hbinds : Binds bindings s)
    (hmodule : bindings.lookup "module" = none) (htime : limits.noTime = false) (fresh : String) :
    (∃ d, compileWith limits bindings fresh c.script = .ok d)
      ↔ limits.Allow c.script c.toConstraint.expression := by
  refine ⟨fun ⟨d, hd⟩ => (h.run_script_iff hbinds hmodule htime).mp ?_,
    fun hallow => ⟨_, h.compileWith_script hbinds hallow fresh⟩⟩
  unfold compileWith at hd
  split at hd
  · rename_i exported hrun
    exact ⟨exported, hrun⟩
  · cases hd

theorem Canonical.compile_iff [Library] (h : c.Canonical sides) (htime : limits.noTime = false)
    (draws : Draws) : (∃ d, ((compile limits c.script).run draws).1 = .ok d)
      ↔ limits.Allow c.script c.toConstraint.expression := by
  rw [compile_run]
  exact h.compileWith_iff binds_standard rfl htime _

/-- A contract is taken one side of by just those limits that its canonical script keeps within. -/
theorem Canonical.derive_iff [Library] (h : c.Canonical sides) (htime : limits.noTime = false)
    (m : Mode) :
    (∃ d, derive limits c m = .ok d) ↔ limits.Allow c.script c.toConstraint.expression := by
  have hmodule : (Bindings.standard.bind "value" (sideBuiltin m)).lookup "module" = none := by
    cases m <;> rfl
  rw [← h.compileWith_iff (binds_sideOf m) hmodule htime c.id]
  unfold derive
  simp only
  cases compileWith limits _ c.id c.script with
  | error e => simp
  | ok d => simp

/-- A view of one side fails as taking the side fails. -/
theorem view_side_iff [Library] (limits : Limits) (c : Contract) (m : Mode) :
    (∃ text, Admin.View.script limits c (.side m) = .ok text)
      ↔ ∃ d, derive limits c m = .ok d := by
  rw [Admin.View.script]
  cases derive limits c m with
  | error e => simp
  | ok d => simp

/-! ## Growth -/

theorem size_assignment (cs : List Char) :
    utf8Len ("module.exports = ".toList ++ cs ++ [';', '\n']) = utf8Len cs + 19 := by
  have hfirst : utf8Len "module.exports = ".toList = 17 := by decide
  have hlast : utf8Len [';', '\n'] = 2 := by decide
  rw [utf8Len_append, utf8Len_append, hfirst, hlast]
  omega

/-- A canonical script takes no more bytes than there is in the tree that is written. -/
theorem Canonical.size_script [Library] (h : c.Canonical sides) :
    c.script.utf8ByteSize ≤ c.toConstraint.weight (layout c.toConstraint.depth) := by
  have hmargin : 19 ≤ Constraint.margin c.toConstraint.depth := by
    unfold Constraint.margin
    omega
  calc c.script.utf8ByteSize
    _ = utf8Len c.scriptChars := utf8ByteSize_ofList _
    _ = utf8Len (c.toConstraint.chars (some 0)) + 19 := size_assignment _
    _ ≤ utf8Len (c.toConstraint.chars (some 0)) + Constraint.margin c.toConstraint.depth :=
      Nat.add_le_add_left hmargin _
    _ ≤ c.toConstraint.weight (layout c.toConstraint.depth) :=
      Constraint.size_chars h.scripted (Nat.zero_add c.toConstraint.depth).le

/-- What is compiled within limits is written within enlarged ones. -/
theorem allow_enlarged [Library] {source : String} {draws : Draws}
    (h : ((compile limits source bindings).run draws).1 = .ok c) :
    limits.enlarged.Allow c.script c.toConstraint.expression := by
  have hc := (Obtained.compiled h).canonical
  rw [compile_run, compileWith] at h
  split at h
  · rename_i exported hrun
    obtain ⟨e, hvalue, hscript, hnodes, hdepth, -⟩ := Script.run_sound hrun
    obtain ⟨hgrows, hdeeper⟩ := Constraint.value_grows e hvalue
    rw [Option.getD_some] at hgrows hdeeper
    have hdeepest : c.toConstraint.depth ≤ limits.depth + 2 :=
      (depth_ofConstraint h).trans (by omega)
    have hweight : ∀ w, c.toConstraint.weight w ≤ 6 * e.weight w + 5 * w.node := fun w => by
      have hexported := hgrows w
      have hcontract := weight_ofConstraint (w := w) (Constraint.Uuid.size_draw draws) h
      omega
    have htexts : Script.textSize e.kinds ≤ limits.size :=
      (Script.textSize_infix hscript.kinds_within).trans
        ((Script.size_tokensOf source).trans (Script.size_of_run hrun))
    refine ⟨?_, hdeepest, ?_, rfl⟩
    · let w := layout c.toConstraint.depth
      have hnode : w.node ≤ 4 * limits.depth + 448 := by
        show 4 * c.toConstraint.depth + 440 ≤ _
        omega
      calc c.script.utf8ByteSize
        _ ≤ c.toConstraint.weight w := hc.size_script
        _ ≤ 6 * e.weight w + 5 * w.node := hweight w
        _ ≤ 6 * (w.node * e.nodes + 6 * Script.textSize e.kinds) + 5 * w.node := by
          have he := e.weight_le (w := w)
          gcongr
          exact he
        _ ≤ 6 * (w.node * limits.nodes + 6 * limits.size) + 5 * w.node := by gcongr
        _ = w.node * (6 * limits.nodes + 5) + 36 * limits.size := by ring
        _ ≤ (4 * limits.depth + 448) * (6 * limits.nodes + 5) + 36 * limits.size := by gcongr
    · have hcount := hweight ⟨1, 0⟩
      have hwritten : c.toConstraint.weight ⟨1, 0⟩ = c.toConstraint.expression.nodes :=
        Expression.weight_nodes _
      rw [hwritten, Expression.weight_nodes] at hcount
      exact hcount.trans (by simp only [Limits.enlarged]; omega)
  · cases h

/-- The canonical script of a compiled contract is compiled again by just those limits that it keeps
within itself, and so are the contracts that are left on one side and their views; it keeps within
the enlarged limits of the text that the contract was compiled from. -/
theorem canonical_within_limits [Library] {source : String} {draws : Draws}
    (h : ((compile limits source bindings).run draws).1 = .ok c) :
    limits.enlarged.Allow c.script c.toConstraint.expression
      ∧ ∀ limits' : Limits, limits'.noTime = false →
        (∀ draws', (∃ d, ((compile limits' c.script).run draws').1 = .ok d)
          ↔ limits'.Allow c.script c.toConstraint.expression)
        ∧ ∀ m, ((∃ d, derive limits' c m = .ok d)
            ↔ limits'.Allow c.script c.toConstraint.expression)
          ∧ ((∃ text, Admin.View.script limits' c (.side m) = .ok text)
            ↔ limits'.Allow c.script c.toConstraint.expression) := by
  have hc := (Obtained.compiled h).canonical
  exact ⟨allow_enlarged h, fun limits' htime => ⟨hc.compile_iff htime, fun m =>
    ⟨hc.derive_iff htime m, (view_side_iff limits' c m).trans (hc.derive_iff htime m)⟩⟩⟩

section Simple

attribute [local instance] Library.simple

/-- The shortest script needs more to be written than to be compiled, and the enlarged limits are
enough. -/
theorem canonical_within_limits_empty : ∃ c,
    ((compile ⟨2, 1, 1, false⟩ "\x7b\x7d").run ⟨fun _ => 0, 0⟩).1 = .ok c
      ∧ (∀ m d, derive ⟨2, 1, 1, false⟩ c m ≠ .ok d)
      ∧ (∃ d, ((compile (Limits.enlarged ⟨2, 1, 1, false⟩) c.script).run ⟨fun _ => 1, 0⟩).1 = .ok d)
      ∧ ∀ m, ∃ d, derive (Limits.enlarged ⟨2, 1, 1, false⟩) c m = .ok d := by
  obtain ⟨c, hcompile, hexceeds⟩ : ∃ c,
      ((compile ⟨2, 1, 1, false⟩ "\x7b\x7d").run ⟨fun _ => 0, 0⟩).1 = .ok c
        ∧ decide (¬Limits.Allow ⟨2, 1, 1, false⟩ c.script c.toConstraint.expression) = true :=
    exists_ok_of_any (by decide +kernel)
  obtain ⟨hallow, hiff⟩ := canonical_within_limits hcompile
  obtain ⟨hcompiled, hsides⟩ := hiff (Limits.enlarged ⟨2, 1, 1, false⟩) rfl
  exact ⟨c, hcompile, fun m d hd => of_decide_eq_true hexceeds
      (((hiff ⟨2, 1, 1, false⟩ rfl).2 m).1.mp ⟨d, hd⟩),
    (hcompiled _).mpr hallow, fun m => (hsides m).1.mpr hallow⟩

end Simple

theorem Obtained.refused [Library] (hc : Obtained c) (htime : limits.noTime = false)
    (hexceeds : ¬limits.Allow c.script c.toConstraint.expression) :
    (∀ draws d, ((compile limits c.script).run draws).1 ≠ .ok d)
      ∧ ∀ m d, derive limits c m ≠ .ok d :=
  ⟨fun draws d hd => hexceeds ((hc.canonical.compile_iff htime draws).mp ⟨d, hd⟩),
    fun m d hd => hexceeds ((hc.canonical.derive_iff htime m).mp ⟨d, hd⟩)⟩

/-- A script that keeps within limits, the canonical one of which does not. -/
def Outgrows [Library] (limits : Limits) (source : String) : Prop :=
  ∃ c, ((compile limits source).run ⟨fun _ => 0, 0⟩).1 = .ok c
    ∧ (∀ draws d, ((compile limits c.script).run draws).1 ≠ .ok d)
    ∧ ∀ m d, derive limits c m ≠ .ok d

section Simple

attribute [local instance] Library.simple

/-- A query value that is nested as deep as the default limits let it be is one level deeper when it
is written with its name, and a contract without any fields is written with its defaults. -/
theorem canonical_exceeds_limits :
    Outgrows {} (String.ofList ("\x7brequest: \x7bqueryParameters: \x7bq: ".toList
        ++ List.replicate 61 '[' ++ List.replicate 61 ']' ++ "\x7d\x7d\x7d".toList))
      ∧ Outgrows { size := 2 } "\x7b\x7d" ∧ Outgrows { nodes := 1 } "\x7b\x7d" := by
  refine ⟨?_, ?_, ?_⟩
  · obtain ⟨c, hcompile, hdeep⟩ : ∃ c, ((compile {} (String.ofList
          ("\x7brequest: \x7bqueryParameters: \x7bq: ".toList ++ List.replicate 61 '['
            ++ List.replicate 61 ']' ++ "\x7d\x7d\x7d".toList))).run ⟨fun _ => 0, 0⟩).1 = .ok c
        ∧ decide (64 < c.toConstraint.depth) = true := exists_ok_of_any (by decide +kernel)
    have hexceeds : ¬Limits.Allow {} c.script c.toConstraint.expression := fun hallow =>
      absurd hallow.depth (Nat.not_le.mpr (of_decide_eq_true hdeep))
    exact ⟨c, hcompile, (Obtained.compiled hcompile).refused rfl hexceeds⟩
  · obtain ⟨c, hcompile, hexceeds⟩ : ∃ c,
        ((compile { size := 2 } "\x7b\x7d").run ⟨fun _ => 0, 0⟩).1 = .ok c
          ∧ decide (¬Limits.Allow { size := 2 } c.script c.toConstraint.expression) = true :=
      exists_ok_of_any (by decide +kernel)
    exact ⟨c, hcompile, (Obtained.compiled hcompile).refused rfl (of_decide_eq_true hexceeds)⟩
  · obtain ⟨c, hcompile, hexceeds⟩ : ∃ c,
        ((compile { nodes := 1 } "\x7b\x7d").run ⟨fun _ => 0, 0⟩).1 = .ok c
          ∧ decide (¬Limits.Allow { nodes := 1 } c.script c.toConstraint.expression) = true :=
      exists_ok_of_any (by decide +kernel)
    exact ⟨c, hcompile, (Obtained.compiled hcompile).refused rfl (of_decide_eq_true hexceeds)⟩

end Simple

end Contract

end HttpContract
