import HttpContract.Proofs.Script.Run

/-!
# Script — one meaning

Tokens can be read as an expression in one way only: reading them is a function, and it finds every
expression that starts there, so that expressions with the same tokens have the same value, use up
the same nodes (`Expression.read_unique`) and are nested as deep (`Expression.depth_unique`). So
what a script with an assignment exports is the meaning of what is assigned, whatever limits it kept
within (`value_of_assigned`), and it is exported by just those limits that let the text and what is
assigned be read (`run_assigned_iff`).
-/

namespace HttpContract.Script

open Expression (fieldKinds itemKinds fieldValues itemValues fieldDepth itemDepth)

variable {bindings : Bindings} {e e' : Expression} {ks ks' : List TokenKind}

/-! ## Values and nodes -/

/-- Expressions with a meaning that start at the same tokens have the same meaning and use up the
same nodes. -/
theorem Expression.read_unique [Library] {v v' : Option Constraint}
    (hkinds : e.kinds ++ ks = e'.kinds ++ ks') (hfinish : .finish ∉ e.kinds ++ ks)
    (hv : e.value bindings = some v) (hv' : e'.value bindings = some v') :
    v = v' ∧ e.nodes = e'.nodes := by
  -- a reader that stands before the tokens, with limits and steps for either expression
  let tokens : Tokens := ⟨(e.kinds ++ ks).map fun k => ⟨k, {}⟩, .finished {}⟩
  have htokens : tokens.list.map (·.kind) = e.kinds ++ ks := by
    rw [List.map_map]
    exact List.map_id _
  have hended : .finish ∉ tokens.list.map (·.kind) := htokens ▸ hfinish
  obtain ⟨s, -, h⟩ := State.initial_run hended rfl
  rw [htokens] at h
  let limits : Limits := ⟨0, max e.depth e'.depth, max e.nodes e'.nodes, false⟩
  let steps := max (2 * e.kinds.length) (2 * e'.kinds.length)
  have hcomplete : Complete ⟨bindings, limits⟩ {} steps := complete rfl steps
  obtain ⟨s1, hread, h1⟩ := hcomplete.expression h hv (le_max_left ..)
    (by rw [Nat.zero_add]; exact le_max_left ..) (by rw [Nat.zero_add]; exact le_max_left ..)
  obtain ⟨s2, hread', h2⟩ := hcomplete.expression (hkinds ▸ h) hv' (le_max_right ..)
    (by rw [Nat.zero_add]; exact le_max_right ..) (by rw [Nat.zero_add]; exact le_max_right ..)
  rw [hread] at hread'
  obtain ⟨hvalue, rfl⟩ := Prod.mk.inj (Except.ok.inj hread')
  have hnodes := h1.nodes.symm.trans h2.nodes
  rw [Nat.zero_add, Nat.zero_add] at hnodes
  exact ⟨hvalue, hnodes⟩

theorem Expression.value_unique [Library] {v v' : Option Constraint}
    (hkinds : e.kinds ++ ks = e'.kinds ++ ks') (hfinish : .finish ∉ e.kinds ++ ks)
    (hv : e.value bindings = some v) (hv' : e'.value bindings = some v') : v = v' :=
  (read_unique hkinds hfinish hv hv').1

/-! ## Depth -/

/-- The level behind a token. -/
def levelAfter (level : Nat) : TokenKind → Nat
  | .symbol .leftBrace | .symbol .leftBracket | .symbol .leftParen => level + 1
  | .symbol .rightBrace | .symbol .rightBracket | .symbol .rightParen => level - 1
  | _ => level

/-- The deepest level among tokens. -/
def deepest (level : Nat) : List TokenKind → Nat
  | [] => level
  | k :: ks => max level (deepest (levelAfter level k) ks)

theorem le_deepest (level : Nat) (ks : List TokenKind) : level ≤ deepest level ks := by
  cases ks with
  | nil => exact le_rfl
  | cons k ks => exact le_max_left ..

theorem deepest_cons {level : Nat} {k : TokenKind} (h : levelAfter level k = level)
    (ks : List TokenKind) : deepest level (k :: ks) = deepest level ks := by
  rw [deepest, h, max_eq_right (le_deepest level ks)]

/-- Between brackets the level is one deeper. -/
theorem deepest_enclosed {level n : Nat} {first last : TokenKind} {inner : List TokenKind}
    (hfirst : levelAfter level first = level + 1) (hlast : levelAfter (level + 1) last = level)
    (h : ∀ ks, deepest (level + 1) (inner ++ ks) = max (level + 1 + n) (deepest (level + 1) ks)) :
    deepest level (first :: (inner ++ [last]) ++ ks)
      = max (level + (1 + n)) (deepest level ks) := by
  have hle := le_deepest level ks
  rw [List.cons_append, deepest, hfirst, List.append_assoc, h, List.singleton_append, deepest,
    hlast]
  omega

theorem levelAfter_key {level : Nat} {k : TokenKind} {key : String} (h : keyOf? k = some key) :
    levelAfter level k = level := by
  cases k <;> first | rfl | cases h

theorem deepest_separator {α : Type} (level : Nat) (trailing : Bool) (rest : List α)
    (ks : List TokenKind) : deepest level (separator trailing rest ++ ks) = deepest level ks := by
  obtain h | ⟨h, -⟩ := separator_cases trailing rest <;> rw [h]
  · exact deepest_cons rfl ks
  · rfl

theorem deepest_semicolons (level m : Nat) : deepest level (semicolons m) = level := by
  induction m with
  | zero => rfl
  | succ m ih =>
    rw [semicolons, List.replicate_succ, deepest_cons rfl]
    exact ih

/-- A single token that is no bracket is on the level where it stands. -/
theorem deepest_scalar {level : Nat} {k : TokenKind} (h : levelAfter level k = level)
    (ks : List TokenKind) : deepest level ([k] ++ ks) = max (level + 0) (deepest level ks) := by
  rw [List.singleton_append, deepest_cons h]
  exact (max_eq_right (le_deepest level ks)).symm

mutual

/-- The tokens of an expression with a meaning go as deep as it is nested. -/
theorem deepest_kinds [Library] (e : Expression) {v : Option Constraint}
    (hv : e.value bindings = some v) (level : Nat) (ks : List TokenKind) :
    deepest level (e.kinds ++ ks) = max (level + e.depth) (deepest level ks) :=
  match e with
  | .word name => deepest_scalar rfl ks
  | .string x => deepest_scalar rfl ks
  | .number n => deepest_scalar rfl ks
  | .signed negative n => by
    have hsign : levelAfter level (.symbol (signSymbol negative)) = level := by
      cases negative <;> rfl
    exact (deepest_cons hsign _).trans (deepest_scalar rfl ks)
  | .object fields trailing => by
    simp only [Expression.value, Option.map_eq_some_iff] at hv
    obtain ⟨vs, hvs, -⟩ := hv
    exact deepest_enclosed rfl rfl (deepest_fields fields trailing hvs (level + 1))
  | .array items trailing => by
    simp only [Expression.value, Option.map_eq_some_iff] at hv
    obtain ⟨vs, hvs, -⟩ := hv
    exact deepest_enclosed rfl rfl (deepest_items items trailing hvs (level + 1))
  | .call name arguments trailing => by
    obtain ⟨-, b, vs, c, -, hvs, -⟩ := Expression.value_call hv
    exact (deepest_cons rfl _).trans
      (deepest_enclosed rfl rfl (deepest_items arguments trailing hvs (level + 1)))
termination_by structural e

theorem deepest_fields [Library] (fields : List (TokenKind × Expression)) (trailing : Bool)
    {before vs : List (String × Constraint)} (hvs : fieldValues bindings before fields = some vs)
    (level : Nat) (ks : List TokenKind) :
    deepest level (fieldKinds trailing fields ++ ks)
      = max (level + fieldDepth fields) (deepest level ks) :=
  match fields with
  | [] => (max_eq_right (le_deepest level ks)).symm
  | (k, e) :: rest => by
    rw [fieldValues] at hvs
    split at hvs
    · rename_i key v hkey hv
      rw [fieldKinds, List.cons_append, List.cons_append, deepest_cons (levelAfter_key hkey),
        deepest_cons rfl, List.append_assoc, List.append_assoc, deepest_kinds e hv,
        deepest_separator, deepest_fields rest trailing hvs, fieldDepth]
      omega
    · cases hvs
termination_by structural fields

theorem deepest_items [Library] (items : List Expression) (trailing : Bool)
    {vs : List (Option Constraint)} (hvs : itemValues bindings items = some vs) (level : Nat)
    (ks : List TokenKind) :
    deepest level (itemKinds trailing items ++ ks)
      = max (level + itemDepth items) (deepest level ks) :=
  match items with
  | [] => (max_eq_right (le_deepest level ks)).symm
  | e :: rest => by
    rw [itemValues] at hvs
    split at hvs
    · rename_i v more hv hmore
      rw [itemKinds, List.append_assoc, List.append_assoc, deepest_kinds e hv, deepest_separator,
        deepest_items rest trailing hmore, itemDepth]
      omega
    · cases hvs
termination_by structural items

end

/-- Expressions with a meaning that have the same tokens before semicolons are nested as deep. -/
theorem Expression.depth_unique [Library] {v v' : Option Constraint} {m m' : Nat}
    (hkinds : e.kinds ++ semicolons m = e'.kinds ++ semicolons m')
    (hv : e.value bindings = some v) (hv' : e'.value bindings = some v') :
    e.depth = e'.depth := by
  have h := deepest_kinds e hv 0 (semicolons m)
  rw [hkinds, deepest_kinds e' hv', deepest_semicolons, deepest_semicolons] at h
  omega

/-! ## Scripts with an assignment -/

/-- The expression of a script with an assignment stands behind it. -/
theorem IsScript.assigned [Library] {v : Option Constraint}
    (h : IsScript (assignmentKinds true ++ ks) e) (hv : e.value bindings = some v)
    (hmodule : bindings.lookup "module" = none) :
    ∃ m, ks = e.kinds ++ semicolons m := by
  obtain ⟨ds, m, ls, hks, hexported⟩ := h
  cases ds with
  | cons x ds => cases hks
  | nil =>
    cases hexported with
    | text => cases hks
    | plain assigned =>
      cases assigned with
      | true => exact ⟨m, List.append_cancel_left (hks.trans (List.append_assoc ..))⟩
      -- no expression with a meaning starts as the assignment does
      | false =>
        have hhead := congrArg List.head? hks
        obtain ⟨k, more, hk, -⟩ := e.kinds_cons
        have hne := head_ne_module hv hmodule
        rw [hk] at hne
        simp [directiveKinds, assignmentKinds, hk] at hhead
        exact absurd (congrArg some hhead.symm) hne

/-- What running an assignment gives is the meaning of what is assigned. -/
theorem value_of_assigned [Library] {limits : Limits} {source : String} {rest : List Char} {m : Nat}
    {c c' : Constraint}
    (hscan : Scans source.toList (assignmentKinds true ++ (e.kinds ++ semicolons m)) rest)
    (hend : Ends rest) (hv : e.value bindings = some (some c))
    (hmodule : bindings.lookup "module" = none) (h : run limits bindings source = .ok c') :
    c' = c := by
  obtain ⟨hkinds, -⟩ := hscan.ofScript hend
  obtain ⟨e', hv', hscript, -⟩ := run_sound h
  rw [tokensOf, hkinds] at hscript
  obtain ⟨m', hks⟩ := hscript.assigned hv' hmodule
  have hfinish : TokenKind.finish ∉ e.kinds ++ semicolons m := fun hmem =>
    hscan.finish_not_mem (List.mem_append_right _ hmem)
  exact Option.some.inj (Expression.value_unique hks hfinish hv hv').symm

theorem size_of_run [Library] {limits : Limits} {source : String} {c : Constraint}
    (h : run limits bindings source = .ok c) : source.utf8ByteSize ≤ limits.size := by
  unfold run at h
  split at h
  · cases h
  · rename_i hsize
    exact Nat.not_lt.mp hsize

/-- An assignment is run by just those limits that let the text and what is assigned be read. -/
theorem run_assigned_iff [Library] {limits : Limits} {source : String} {rest : List Char} {m : Nat}
    {c : Constraint}
    (hscan : Scans source.toList (assignmentKinds true ++ (e.kinds ++ semicolons m)) rest)
    (hend : Ends rest) (hv : e.value bindings = some (some c))
    (hmodule : bindings.lookup "module" = none) (htime : limits.noTime = false) :
    (∃ c', run limits bindings source = .ok c') ↔ limits.Allow source e := by
  refine ⟨fun ⟨c', h⟩ => ?_, fun h => ⟨c, run_assigned hscan hend hv h⟩⟩
  obtain ⟨hkinds, -⟩ := hscan.ofScript hend
  obtain ⟨e', hv', hscript, hnodes, hdepth, -⟩ := run_sound h
  rw [tokensOf, hkinds] at hscript
  obtain ⟨m', hks⟩ := hscript.assigned hv' hmodule
  have hfinish : TokenKind.finish ∉ e.kinds ++ semicolons m := fun hmem =>
    hscan.finish_not_mem (List.mem_append_right _ hmem)
  refine ⟨size_of_run h, ?_, ?_, htime⟩
  · rwa [Expression.depth_unique hks hv hv']
  · rwa [(Expression.read_unique hks hfinish hv hv').2]

end HttpContract.Script
