/-
  CallForm.Json.Writer — JSON text: `compact` without blanks, and `pretty` with one item a
  line and two blanks per level. In strings only quotes, backslashes and characters below
  U+0020 are escaped.
-/

import CallForm.Json

namespace CallForm.Json

/-- The digit of a value below 16, lower-case. -/
def hexDigit (n : Nat) : Char := if n < 10 then Char.ofNat (48 + n) else Char.ofNat (87 + n)

/-- One character as it stands in a string. -/
def escape (c : Char) : List Char :=
  if c = '"' then ['\\', '"']
  else if c = '\\' then ['\\', '\\']
  else if c = '\n' then ['\\', 'n']
  else if c = '\r' then ['\\', 'r']
  else if c = '\t' then ['\\', 't']
  else if c = '\x08' then ['\\', 'b']
  else if c = '\x0c' then ['\\', 'f']
  else if c.toNat < 0x20 then
    ['\\', 'u', '0', '0', hexDigit (c.toNat / 16), hexDigit (c.toNat % 16)]
  else [c]

/-- A string between quotes. -/
def quoted (s : String) : String :=
  "\"" ++ String.ofList (s.toList.flatMap escape) ++ "\""

mutual

def compact : Json → String
  | .null => "null"
  | .bool true => "true"
  | .bool false => "false"
  | .number n => n.text
  | .string s => quoted s
  | .array items => "[" ++ ",".intercalate (compacts items) ++ "]"
  | .object members => "\x7b" ++ ",".intercalate (compactMembers members) ++ "\x7d"

def compacts : List Json → List String
  | [] => []
  | item :: items => compact item :: compacts items

def compactMembers : List (String × Json) → List String
  | [] => []
  | (name, value) :: members => (quoted name ++ ":" ++ compact value) :: compactMembers members

end

mutual

/-- The text of a value whose first line is already indented by `margin`. -/
def prettyFrom (margin : String) : Json → String
  | .null => "null"
  | .bool true => "true"
  | .bool false => "false"
  | .number n => n.text
  | .string s => quoted s
  | .array [] => "[]"
  | .array (item :: items) =>
    "[\n" ++ ",\n".intercalate (prettyItems (margin ++ "  ") (item :: items)) ++
      "\n" ++ margin ++ "]"
  | .object [] => "\x7b\x7d"
  | .object (member :: members) =>
    "\x7b\n" ++ ",\n".intercalate (prettyMembers (margin ++ "  ") (member :: members)) ++
      "\n" ++ margin ++ "\x7d"

def prettyItems (margin : String) : List Json → List String
  | [] => []
  | item :: items => (margin ++ prettyFrom margin item) :: prettyItems margin items

def prettyMembers (margin : String) : List (String × Json) → List String
  | [] => []
  | (name, value) :: members =>
    (margin ++ quoted name ++ ": " ++ prettyFrom margin value) :: prettyMembers margin members

end

def pretty (v : Json) : String := prettyFrom "" v

end CallForm.Json
