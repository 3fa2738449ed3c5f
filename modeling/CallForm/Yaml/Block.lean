/-
  CallForm.Yaml.Block — JSON values and tokens as block-style YAML: two blanks per level, and a
  list under a key not indented further than the key.
-/

import CallForm.Json
import CallForm.Token
import CallForm.Yaml.Scalar

namespace CallForm.Yaml

mutual

/-- A value after a key that stands at the margin. -/
def afterKey (margin : String) : Json → String
  | .null => " null\n"
  | .bool b => " " ++ toString b ++ "\n"
  | .number n => " " ++ n.text ++ "\n"
  | .string s => " " ++ scalarLine (margin ++ "  ") s
  | .array [] => " []\n"
  | .array (v :: vs) => "\n" ++ items margin margin (v :: vs)
  | .object [] => " \x7b\x7d\n"
  | .object (m :: ms) => "\n" ++ entries (margin ++ "  ") (margin ++ "  ") (m :: ms)

/-- A value at the beginning of a text or after a dash; its further lines stand at the margin. -/
def afterDash (margin : String) : Json → String
  | .null => "null\n"
  | .bool b => toString b ++ "\n"
  | .number n => n.text ++ "\n"
  | .string s => scalarLine margin s
  | .array [] => "[]\n"
  | .array (v :: vs) => items "" margin (v :: vs)
  | .object [] => "\x7b\x7d\n"
  | .object (m :: ms) => entries "" margin (m :: ms)

/-- The items of a list, the first one after `lead` and the others at the margin. -/
def items (lead margin : String) : List Json → String
  | [] => ""
  | v :: vs => lead ++ "- " ++ afterDash (margin ++ "  ") v ++ items margin margin vs

/-- The entries of a mapping, the first one after `lead` and the others at the margin. -/
def entries (lead margin : String) : List (String × Json) → String
  | [] => ""
  | (name, v) :: ms =>
    lead ++ keyText name ++ ":" ++ afterKey margin v ++ entries margin margin ms

end

def ofJson (v : Json) : String := afterDash "" v

/-! ## Tokens -/

/-- The line of a token: its text, tagged with its kind. -/
def tokenLine : Token → String
  | .paren c => "- !Paren " ++ scalarLine "  " (String.singleton c)
  | .name text => "- !Name " ++ scalarLine "  " text
  | .number digits => "- !Number " ++ scalarLine "  " digits

def ofTokens (ts : List Token) : String :=
  if ts.isEmpty then "[]\n" else String.join (ts.map tokenLine)

end CallForm.Yaml
