/-
  CallForm.Toml.Value — values of a TOML document. A date or a time is kept as the text that is
  written for it.
-/

namespace CallForm.Toml

inductive Value where
  | string (s : String)
  | integer (i : Int)
  | float (x : Float)
  | bool (b : Bool)
  | moment (text : String)
  | array (items : List Value)
  | table (entries : List (String × Value))

end CallForm.Toml
