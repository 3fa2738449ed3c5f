/-
  CallForm.Json — JSON values. A number is kept as it is written; the members of an object are
  kept in order, repeated names included.
-/

import CallForm.Json.Numeral
import CallForm.Text.Quoted

namespace CallForm

inductive Json where
  | null
  | bool (b : Bool)
  | number (n : Json.Numeral)
  | string (s : String)
  | array (items : List Json)
  | object (members : List (String × Json))
  deriving Repr

namespace Json

/-- What messages call a value. -/
def described : Json → String
  | .null => "null"
  | .bool true => "boolean `true`"
  | .bool false => "boolean `false`"
  | .number n =>
    match n.value? with
    | some (.natural k) => "integer `" ++ k.repr ++ "`"
    | some (.negative k) => "integer `-" ++ k.repr ++ "`"
    | some (.float x) => "floating point `" ++ Decimal.scientific x ++ "`"
    | none => "number"
  | .string s => "string " ++ Text.quoted s
  | .array _ => "sequence"
  | .object _ => "map"

/-- The value of the first member of this name. -/
def member? (name : String) : Json → Option Json
  | .object members => members.lookup name
  | _ => none

end Json

end CallForm
