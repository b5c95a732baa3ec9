import HttpContract.Json.Number

/-!
# Json — JSON values

JSON values with the fields of an object in their written order. The text of a value, reading it and
comparing values are in the modules beside this one.
-/

namespace HttpContract

/-- A JSON value. -/
inductive Json where
  | null
  | bool (b : Bool)
  | number (n : Json.Number)
  | string (s : String)
  | array (items : List Json)
  | object (fields : List (String × Json))

namespace Json

/-! ## Decidable equality -/

mutual

/-- Decides whether two values are equal. -/
def decEq : (v w : Json) → Decidable (v = w)
  | .null, w => match w with
    | .null => isTrue rfl
    | .bool _ | .number _ | .string _ | .array _ | .object _ => isFalse (by simp)
  | .bool a, w => match w with
    | .bool b => if h : a = b then isTrue (by rw [h]) else isFalse (by simpa using h)
    | .null | .number _ | .string _ | .array _ | .object _ => isFalse (by simp)
  | .number a, w => match w with
    | .number b => if h : a = b then isTrue (by rw [h]) else isFalse (by simpa using h)
    | .null | .bool _ | .string _ | .array _ | .object _ => isFalse (by simp)
  | .string a, w => match w with
    | .string b => if h : a = b then isTrue (by rw [h]) else isFalse (by simpa using h)
    | .null | .bool _ | .number _ | .array _ | .object _ => isFalse (by simp)
  | .array a, w => match w with
    | .array b => match decEqItems a b with
      | isTrue h => isTrue (by rw [h])
      | isFalse h => isFalse (by simpa using h)
    | .null | .bool _ | .number _ | .string _ | .object _ => isFalse (by simp)
  | .object a, w => match w with
    | .object b => match decEqFields a b with
      | isTrue h => isTrue (by rw [h])
      | isFalse h => isFalse (by simpa using h)
    | .null | .bool _ | .number _ | .string _ | .array _ => isFalse (by simp)
termination_by structural v => v

/-- Decides whether two lists of values are equal. -/
def decEqItems : (vs ws : List Json) → Decidable (vs = ws)
  | [], ws => match ws with
    | [] => isTrue rfl
    | _ :: _ => isFalse (by simp)
  | v :: vs, ws => match ws with
    | [] => isFalse (by simp)
    | w :: ws => match decEq v w, decEqItems vs ws with
      | isTrue h, isTrue h' => isTrue (by rw [h, h'])
      | isFalse h, _ => isFalse (by simp [h])
      | _, isFalse h => isFalse (by simp [h])
termination_by structural vs => vs

/-- Decides whether two lists of fields are equal. -/
def decEqFields : (fs gs : List (String × Json)) → Decidable (fs = gs)
  | [], gs => match gs with
    | [] => isTrue rfl
    | _ :: _ => isFalse (by simp)
  | (k, v) :: fs, gs => match gs with
    | [] => isFalse (by simp)
    | (l, w) :: gs =>
      if h : k = l then
        match decEq v w, decEqFields fs gs with
        | isTrue h', isTrue h'' => isTrue (by rw [h, h', h''])
        | isFalse h', _ => isFalse (by simp [h'])
        | _, isFalse h' => isFalse (by simp [h'])
      else isFalse (by simp [h])
termination_by structural fs => fs

end

instance : DecidableEq Json := decEq

instance : Inhabited Json := ⟨.null⟩

/-! ## Building and taking apart -/

/-- The value of a whole number, brought into the range of words. -/
def ofInt (n : Int) : Json := .number (.integer (WordInt.ofInt n))

/-- Whether the value is null. -/
def isNull : Json → Bool
  | .null => true
  | _ => false

/-- The text of a text value. -/
def asString? : Json → Option String
  | .string s => some s
  | _ => none

/-- The value of a field of an object. -/
def get? (key : String) : Json → Option Json
  | .object fields => fields.lookup key
  | _ => none

/-- Sets a field: a new one goes to the end, one that is there keeps its place. -/
def setField {α : Type} (key : String) (value : α) : List (String × α) → List (String × α)
  | [] => [(key, value)]
  | (k, v) :: rest => if k = key then (k, value) :: rest else (k, v) :: setField key value rest

end Json

end HttpContract
