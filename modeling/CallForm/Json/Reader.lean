/-
  CallForm.Json.Reader — JSON values read from text. A text that is no JSON is malformed, or
  unfinished if it only ends too early. Arrays and objects may nest 127 deep; a number must
  have a finite value; a `\u` escape must not be half of a surrogate pair.
-/

import CallForm.Json

namespace CallForm.Json

inductive Fault where
  | malformed
  | unfinished
  deriving DecidableEq, Repr

def isBlank (c : Char) : Bool := c == ' ' || c == '\n' || c == '\t' || c == '\r'

def skipBlanks (cs : List Char) : List Char := cs.dropWhile isBlank

/-- A fault where something else was due: the text ended, or went on with something wrong. -/
def wrong (rest : List Char) : Fault := if rest.isEmpty then .unfinished else .malformed

/-! ## Strings -/

/-- What the next character of a string is due to be. -/
inductive Due where
  | plain
  | escape
  /-- A hexadecimal digit; `more` of them follow, and `code` is read so far. `lead` is the
      first half of a surrogate pair. -/
  | hex (lead : Option Nat) (more : Nat) (code : Nat)
  /-- The backslash after the first half of a surrogate pair. -/
  | trailSlash (lead : Nat)
  /-- The letter after that backslash. -/
  | trailLetter (lead : Nat)
  deriving DecidableEq, Repr

def hexValue? (c : Char) : Option Nat :=
  if '0' ≤ c ∧ c ≤ '9' then some (c.toNat - 48)
  else if 'a' ≤ c ∧ c ≤ 'f' then some (c.toNat - 87)
  else if 'A' ≤ c ∧ c ≤ 'F' then some (c.toNat - 55)
  else none

/-- The character that a one-letter escape stands for. -/
def unescape? (c : Char) : Option Char :=
  if c = '"' ∨ c = '\\' ∨ c = '/' then some c
  else if c = 'b' then some '\x08'
  else if c = 'f' then some '\x0c'
  else if c = 'n' then some '\n'
  else if c = 'r' then some '\r'
  else if c = 't' then some '\t'
  else none

def isLead (code : Nat) : Bool := 0xD800 ≤ code && code < 0xDC00

def isTrail (code : Nat) : Bool := 0xDC00 ≤ code && code < 0xE000

/-- The character of a surrogate pair. -/
def paired (lead trail : Nat) : Char :=
  Char.ofNat (0x10000 + (lead - 0xD800) * 0x400 + (trail - 0xDC00))

/-- Whether the text has room for the four bytes of a hexadecimal escape. -/
def hasFourBytes (cs : List Char) : Bool := 4 ≤ ((cs.take 4).map Char.utf8Size).foldl (· + ·) 0

/-- Reads a string up to its closing quote; `done` holds its characters, newest first. -/
def readStringFrom : Due → (done : List Char) → List Char →
    Except Fault (List Char × List Char)
  | _, _, [] => .error .unfinished
  | .plain, done, c :: cs =>
    if c = '"' then .ok (done.reverse, cs)
    else if c = '\\' then readStringFrom .escape done cs
    else if c.toNat < 0x20 then .error .malformed
    else readStringFrom .plain (c :: done) cs
  | .escape, done, c :: cs =>
    if c = 'u' then
      if hasFourBytes cs then readStringFrom (.hex none 3 0) done cs else .error .unfinished
    else
      match unescape? c with
      | some d => readStringFrom .plain (d :: done) cs
      | none => .error .malformed
  | .hex lead more code, done, c :: cs =>
    match hexValue? c with
    | none => .error .malformed
    | some d =>
      let code := 16 * code + d
      match more, lead with
      | more + 1, lead => readStringFrom (.hex lead more code) done cs
      | 0, none =>
        if isLead code then readStringFrom (.trailSlash code) done cs
        else if isTrail code then .error .malformed
        else readStringFrom .plain (Char.ofNat code :: done) cs
      | 0, some lead =>
        if isTrail code then readStringFrom .plain (paired lead code :: done) cs
        else .error .malformed
  | .trailSlash lead, done, c :: cs =>
    if c = '\\' then readStringFrom (.trailLetter lead) done cs else .error .malformed
  | .trailLetter lead, done, c :: cs =>
    if c = 'u' then
      if hasFourBytes cs then readStringFrom (.hex (some lead) 3 0) done cs else .error .unfinished
    else .error .malformed

/-- Reads a string whose opening quote is already taken. -/
def readString (cs : List Char) : Except Fault (String × List Char) :=
  (readStringFrom .plain [] cs).map fun r => (String.ofList r.1, r.2)

/-! ## Numbers -/

/-- At least one digit. -/
def readDigits (cs : List Char) : Except Fault (List Char × List Char) :=
  match cs.takeWhile Char.isDigit with
  | [] => .error (wrong cs)
  | ds => .ok (ds, cs.dropWhile Char.isDigit)

/-- Digits before the point: no zero stands in front of another digit. -/
def readWhole (cs : List Char) : Except Fault (List Char × List Char) := do
  let (ds, rest) ← readDigits cs
  if ds.head? = some '0' ∧ 1 < ds.length then .error .malformed else .ok (ds, rest)

/-- A point and the digits after it, if there is one. -/
def readFraction (cs : List Char) : Except Fault (List Char × List Char) :=
  match cs with
  | '.' :: cs => readDigits cs
  | cs => .ok ([], cs)

/-- The letter and the sign that begin an exponent, if there is one. -/
def readExponentMark (cs : List Char) : List Char × List Char :=
  match cs with
  | c :: rest =>
    if c = 'e' ∨ c = 'E' then
      match rest with
      | d :: rest => if d = '+' ∨ d = '-' then ([c, d], rest) else ([c], d :: rest)
      | [] => ([c], [])
    else ([], c :: rest)
  | [] => ([], [])

def readNumeral (cs : List Char) : Except Fault (Numeral × List Char) := do
  let negative := cs.head? = some '-'
  let (whole, rest) ← readWhole (if negative then cs.drop 1 else cs)
  let (fraction, rest) ← readFraction rest
  let (mark, rest) := readExponentMark rest
  let (exponent, rest) ← if mark.isEmpty then .ok ([], rest) else readDigits rest
  .ok (⟨negative, whole, fraction, mark, exponent⟩, rest)

/-- A number whose value is finite. -/
def readNumber (cs : List Char) : Except Fault (Json × List Char) := do
  let (n, rest) ← readNumeral cs
  if n.value?.isSome then .ok (.number n, rest) else .error .malformed

/-! ## Values -/

/-- A word that stands for a value, after its first letter. -/
def readWord (letters : List Char) (v : Json) (cs : List Char) : Except Fault (Json × List Char) :=
  match letters, cs with
  | [], cs => .ok (v, cs)
  | _ :: _, [] => .error .unfinished
  | l :: letters, c :: cs => if c = l then readWord letters v cs else .error .malformed

/-- The items of a list, of which one is due, up to and with the closing bracket; `bound` is no
    less than their number. A fault of the text is reported by `fault`. -/
def readItems {ε α : Type} (fault : Fault → ε) (close : Char)
    (item : List Char → Except ε (α × List Char)) :
    (bound : Nat) → List Char → Except ε (List α × List Char)
  | 0, _ => .error (fault .unfinished)
  | bound + 1, cs => do
    let (a, rest) ← item cs
    match skipBlanks rest with
    | [] => .error (fault .unfinished)
    | c :: rest =>
      if c = ',' then
        let (others, rest) ← readItems fault close item bound rest
        .ok (a :: others, rest)
      else if c = close then .ok ([a], rest)
      else .error (fault .malformed)

/-- A list of items whose opening bracket is already taken. -/
def readList {ε α : Type} (fault : Fault → ε) (close : Char)
    (item : List Char → Except ε (α × List Char)) (cs : List Char) :
    Except ε (List α × List Char) :=
  match skipBlanks cs with
  | [] => .error (fault .unfinished)
  | c :: rest =>
    if c = close then .ok ([], rest)
    else readItems fault close item (rest.length + 1) (c :: rest)

/-- The name of a member, up to and with the colon. -/
def readName (cs : List Char) : Except Fault (String × List Char) :=
  match skipBlanks cs with
  | '"' :: rest => do
    let (name, rest) ← readString rest
    match skipBlanks rest with
    | ':' :: rest => .ok (name, rest)
    | rest => .error (wrong rest)
  | rest => .error (wrong rest)

/-- A member of an object: its name, and its value, which `value` reads. -/
def readMember (value : List Char → Except Fault (Json × List Char)) (cs : List Char) :
    Except Fault ((String × Json) × List Char) := do
  let (name, rest) ← readName cs
  let (v, rest) ← value rest
  .ok ((name, v), rest)

/-- Reads a value in which arrays and objects nest at most `depth` deep. -/
def readValue (depth : Nat) (cs : List Char) : Except Fault (Json × List Char) :=
  match skipBlanks cs with
  | [] => .error .unfinished
  | c :: cs =>
    if c = '"' then (readString cs).map fun r => (.string r.1, r.2)
    else if c = 'n' then readWord ['u', 'l', 'l'] .null cs
    else if c = 't' then readWord ['r', 'u', 'e'] (.bool true) cs
    else if c = 'f' then readWord ['a', 'l', 's', 'e'] (.bool false) cs
    else if c = '-' ∨ c.isDigit then readNumber (c :: cs)
    else if c = '[' then
      match depth with
      | 0 => .error .malformed
      | depth + 1 => (readList id ']' (readValue depth) cs).map fun r => (.array r.1, r.2)
    else if c = '\x7b' then
      match depth with
      | 0 => .error .malformed
      | depth + 1 =>
        (readList id '\x7d' (readMember (readValue depth)) cs).map fun r => (.object r.1, r.2)
    else .error .malformed

/-- The value at hand where no array or object is due: such a one counts as empty, and nothing
    behind its bracket is read. -/
def readShallow (cs : List Char) : Except Fault (Json × List Char) :=
  match skipBlanks cs with
  | '[' :: rest => .ok (.array [], rest)
  | '\x7b' :: rest => .ok (.object [], rest)
  | rest => readValue 0 rest

/-- How deep arrays and objects may nest. -/
def maxDepth : Nat := 127

/-- The value that a whole text spells, nested at most `depth` deep. -/
def ofText (depth : Nat) (text : String) : Except Fault Json := do
  let (v, rest) ← readValue depth text.toList
  if (skipBlanks rest).isEmpty then .ok v else .error .malformed

end CallForm.Json
