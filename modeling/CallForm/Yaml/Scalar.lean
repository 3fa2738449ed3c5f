/-
  CallForm.Yaml.Scalar — a string as a block-style YAML scalar.

  A string with line feeds asks for a literal block, one that would read as null, a truth value
  or a number for single quotes, and any other for no quotes; what the asked style cannot hold
  goes into single quotes, and what these cannot hold into double quotes.
-/

import CallForm.Json.Numeral

namespace CallForm.Yaml

/-! ## Strings that would read as something else -/

def readsAsNull (s : String) : Bool := s ∈ ["", "~", "null", "Null", "NULL"]

def readsAsBool (s : String) : Bool := s ∈ ["true", "True", "TRUE", "false", "False", "FALSE"]

def digitOf? (c : Char) : Option Nat :=
  if '0' ≤ c ∧ c ≤ '9' then some (c.toNat - 48)
  else if 'a' ≤ c ∧ c ≤ 'f' then some (c.toNat - 87)
  else if 'A' ≤ c ∧ c ≤ 'F' then some (c.toNat - 55)
  else none

/-- The number that digits of a base spell. -/
def valueInBase? (base : Nat) (cs : List Char) : Option Nat :=
  if cs.isEmpty then none
  else cs.foldlM (fun n c =>
    match digitOf? c with
    | some d => if d < base then some (base * n + d) else none
    | none => none) 0

/-- The digits after a sign of a base, and the base. -/
def based? : List Char → Option (Nat × List Char)
  | '0' :: 'x' :: cs => some (16, cs)
  | '0' :: 'o' :: cs => some (8, cs)
  | '0' :: 'b' :: cs => some (2, cs)
  | _ => none

/-- Integers in base 16, 8 or 2, within 128 bits. -/
def readsAsBased (cs : List Char) : Bool :=
  let (limit, size) := match cs with
    | '-' :: cs => (Nat.pow 2 127 + 1, cs)
    | '+' :: cs => (Nat.pow 2 128, cs)
    | cs => (Nat.pow 2 128, cs)
  match based? size with
  | none => false
  | some (base, digits) =>
    match valueInBase? base digits with
    | none => false
    | some n => n < limit

def readsAsSpecial (s : String) : Bool :=
  s ∈ [".inf", ".Inf", ".INF", "+.inf", "+.Inf", "+.INF", "-.inf", "-.Inf", "-.INF",
       ".nan", ".NaN", ".NAN"]

/-- Whether `n · 10 ^ exponent` is closer to a finite float than to infinity. -/
def isFiniteDecimal (n : Nat) (exponent : Int) : Bool :=
  let places := (Nat.toDigits 10 n).length + exponent
  let limit := Nat.pow 2 1024 - Nat.pow 2 970
  if n = 0 || places < 309 then true
  else if 310 < places then false
  else if 0 ≤ exponent then n * Nat.pow 10 exponent.toNat < limit
  else n < limit * Nat.pow 10 (-exponent).toNat

/-- An exponent, up to the end of the text. -/
def exponentValue? : List Char → Option Int
  | [] => some 0
  | c :: cs =>
    if c = 'e' ∨ c = 'E' then
      let (negative, digits) := match cs with
        | '-' :: cs => (true, cs)
        | '+' :: cs => (false, cs)
        | cs => (false, cs)
      if digits.isEmpty || !digits.all Char.isDigit then none
      else
        let n : Int := Json.digitsValue digits
        some (if negative then -n else n)
    else none

/-- Decimal numbers, with or without a point and an exponent, that are finite as floats. -/
def readsAsDecimal (cs : List Char) : Bool :=
  let cs := match cs with
    | '-' :: cs => cs
    | '+' :: cs => cs
    | cs => cs
  let whole := cs.takeWhile Char.isDigit
  let rest := cs.dropWhile Char.isDigit
  let (fraction, rest) := match rest with
    | '.' :: rest => (rest.takeWhile Char.isDigit, rest.dropWhile Char.isDigit)
    | rest => ([], rest)
  if whole.isEmpty && fraction.isEmpty then false
  else
    match exponentValue? rest with
    | none => false
    | some e => isFiniteDecimal (Json.digitsValue (whole ++ fraction)) (e - fraction.length)

/-- Digits after a zero, with or without a sign. They are no number, but must not look like one. -/
def readsAsPadded (cs : List Char) : Bool :=
  let digits := match cs with
    | '-' :: cs => cs
    | '+' :: cs => cs
    | cs => cs
  digits.length > 1 && digits.head? == some '0' && digits.all Char.isDigit

def readsAsNumber (s : String) : Bool :=
  readsAsBased s.toList || readsAsSpecial s || readsAsDecimal s.toList || readsAsPadded s.toList

/-! ## What each style can hold -/

def isBreak (c : Char) : Bool :=
  c == '\n' || c == '\r' || c == '\u0085' || c == '\u2028' || c == '\u2029'

/-- Blanks, breaks and the end of the text. -/
def isGap : Option Char → Bool
  | none => true
  | some c => c == ' ' || c == '\t' || c == '\x00' || isBreak c

/-- The characters that need no escape in any style. -/
def isPlainPrintable (c : Char) : Bool :=
  let n := c.toNat
  n = 0xA || (0x20 ≤ n && n ≤ 0x7E) || (0xA0 ≤ n && n ≤ 0xD7FF) ||
    (0xE000 ≤ n && n ≤ 0xFFFD && n ≠ 0xFEFF) || 0x10000 ≤ n

/-- Whether a character between two others means something in unquoted text. -/
def isIndicator (before : Option Char) (c : Char) (after : Option Char) : Bool :=
  match before with
  | none =>
    c ∈ ['#', ',', '[', ']', '\x7b', '\x7d', '&', '*', '!', '|', '>', '\'', '"', '%', '@',
        '\x60'] ||
      (c ∈ ['?', ':', '-'] && isGap after)
  | some _ => (c = ':' && isGap after) || (c = '#' && isGap before)

def hasIndicator : (before : Option Char) → List Char → Bool
  | _, [] => false
  | before, c :: cs => isIndicator before c cs.head? || hasIndicator (some c) cs

/-- Whether two neighbours satisfy `first` and `second`. -/
def hasPair (first second : Char → Bool) : List Char → Bool
  | a :: b :: cs => (first a && second b) || hasPair first second (b :: cs)
  | _ => false

def isSpace (c : Char) : Bool := c == ' '

def plainHolds (cs : List Char) : Bool :=
  !(hasIndicator none cs || ['-', '-', '-'].isPrefixOf cs || ['.', '.', '.'].isPrefixOf cs ||
    cs.head?.any isSpace || cs.getLast?.any isSpace || cs.any isBreak ||
    !cs.all isPlainPrintable)

def singleHolds (cs : List Char) : Bool :=
  !(hasPair isBreak isSpace cs || hasPair isSpace isBreak cs || !cs.all isPlainPrintable)

def literalHolds (cs : List Char) : Bool :=
  !(cs.getLast?.any isSpace || hasPair isSpace isBreak cs || !cs.all isPlainPrintable)

inductive Style where
  | plain
  | single
  | double
  | literal
  deriving DecidableEq, Repr

def quotedStyle (cs : List Char) : Style := if singleHolds cs then .single else .double

def styleOf (s : String) : Style :=
  if s.toList.contains '\n' then
    if literalHolds s.toList then .literal else .double
  else if readsAsNull s || readsAsBool s || readsAsNumber s then quotedStyle s.toList
  else if plainHolds s.toList then .plain
  else quotedStyle s.toList

/-! ## Writing -/

/-- The digits of `n` in base 16, upper-case, filled up with zeros. -/
def upperHex (width n : Nat) : List Char :=
  let digits := (Nat.toDigits 16 n).map Char.toUpper
  List.replicate (width - digits.length) '0' ++ digits

/-- One character as it stands between double quotes. -/
def escape (c : Char) : List Char :=
  let n := c.toNat
  if c = '"' then ['\\', '"']
  else if c = '\\' then ['\\', '\\']
  else if isPlainPrintable c && !isBreak c then [c]
  else if n = 0 then ['\\', '0']
  else if n = 7 then ['\\', 'a']
  else if n = 8 then ['\\', 'b']
  else if n = 9 then ['\\', 't']
  else if n = 0xA then ['\\', 'n']
  else if n = 0xB then ['\\', 'v']
  else if n = 0xC then ['\\', 'f']
  else if n = 0xD then ['\\', 'r']
  else if n = 0x1B then ['\\', 'e']
  else if n = 0x85 then ['\\', 'N']
  else if n = 0x2028 then ['\\', 'L']
  else if n = 0x2029 then ['\\', 'P']
  else if n ≤ 0xFF then '\\' :: 'x' :: upperHex 2 n
  else '\\' :: 'u' :: upperHex 4 n

/-- Lines that go on after a break, each after the margin; `fresh` says that a line is due. -/
def indented (margin : String) (write : Char → List Char) : (fresh : Bool) → List Char → List Char
  | _, [] => []
  | fresh, c :: cs =>
    if isBreak c then c :: indented margin write true cs
    else (if fresh then margin.toList else []) ++ write c ++ indented margin write false cs

/-- The marks of a literal block: its depth if it begins with a blank or a break, and what
    becomes of the breaks at its end. -/
def literalMarks (cs : List Char) : String :=
  (if cs.head?.any fun c => isSpace c || isBreak c then "2" else "") ++
    (match cs.reverse with
      | last :: before =>
        if !isBreak last then "-" else if before.head?.all isBreak then "+" else ""
      | [] => "-")

/-- A string between single quotes, in which each of its own is written twice. -/
def singleQuoted (margin : String) (cs : List Char) : String :=
  let write c := if c = '\'' then ['\'', '\''] else [c]
  "'" ++ String.ofList (indented margin write false cs) ++
    (if cs.getLast?.any isBreak then margin else "") ++ "'"

def doubleQuoted (cs : List Char) : String := "\"" ++ String.ofList (cs.flatMap escape) ++ "\""

/-- A string as it stands after a key or a dash, to the end of its line; further lines stand
    after the margin. A break at the end of a literal block is the end of its line. -/
def scalarLine (margin : String) (s : String) : String :=
  let cs := s.toList
  match styleOf s with
  | .plain => s ++ "\n"
  | .single => singleQuoted margin cs ++ "\n"
  | .double => doubleQuoted cs ++ "\n"
  | .literal =>
    "|" ++ literalMarks cs ++ "\n" ++ String.ofList (indented margin (fun c => [c]) true cs) ++
      (if cs.getLast?.any isBreak then "" else "\n")

/-- A string as a key, which stands on one line. -/
def keyText (s : String) : String :=
  match styleOf s with
  | .plain => s
  | .single => singleQuoted "" s.toList
  | .double | .literal => doubleQuoted s.toList

end CallForm.Yaml
