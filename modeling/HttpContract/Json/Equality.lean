import HttpContract.Json.Basic

/-!
# Json — equality of values

Two values agree if they are equal up to the order of an object's fields and the way a number is
written.
-/

namespace HttpContract.Json

mutual

/-- Whether two values agree. -/
def agrees : Json → Json → Bool
  | .null, .null => true
  | .bool a, .bool b => a == b
  | .number m, .number n => m.same n
  | .string s, .string t => s == t
  | .array vs, .array ws => agreesItems vs ws
  | .object fs, .object gs => fs.length == gs.length && agreesFields fs gs
  | _, _ => false
termination_by structural v => v

/-- Whether two lists of values agree item by item. -/
def agreesItems : List Json → List Json → Bool
  | [], [] => true
  | v :: vs, w :: ws => agrees v w && agreesItems vs ws
  | _, _ => false
termination_by structural vs => vs

/-- Whether every field agrees with the field of the same name in another list. -/
def agreesFields : List (String × Json) → List (String × Json) → Bool
  | [], _ => true
  | (k, v) :: fs, gs =>
    (match gs.lookup k with
      | some w => agrees v w
      | none => false) && agreesFields fs gs
termination_by structural fs => fs

end

end HttpContract.Json
