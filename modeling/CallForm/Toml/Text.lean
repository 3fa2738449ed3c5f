/-
  CallForm.Toml.Text — blanks, comments, strings and keys of TOML. A reader takes characters
  from the front and returns what they stand for and the rest, or nothing if they are no TOML.
-/

namespace CallForm.Toml

/-! ## Blanks, comments, line ends -/

def isBlank (c : Char) : Bool := c == ' ' || c == '\t'

def skipBlanks (cs : List Char) : List Char := cs.dropWhile isBlank

/-- A character that may stand in a comment or, the quote apart, in a string of one line. -/
def isPlain (c : Char) : Bool := c == '\t' || (0x20 ≤ c.toNat && c.toNat ≠ 0x7F)

/-- A line feed, alone or after a carriage return. -/
def lineFeed? : List Char → Option (List Char)
  | '\n' :: cs => some cs
  | '\r' :: '\n' :: cs => some cs
  | _ => none

/-- A comment, if there is one. -/
def skipComment (cs : List Char) : List Char :=
  match cs with
  | '#' :: cs => cs.dropWhile isPlain
  | cs => cs

/-- The end of a line, with blanks and a comment before it. -/
def lineEnd? (cs : List Char) : Option (List Char) :=
  match skipComment (skipBlanks cs) with
  | [] => some []
  | cs => lineFeed? cs

/-- Blanks, comments and line ends between the values of an array; `bound` is no less than the
    number of lines. -/
def skipLines : (bound : Nat) → List Char → Option (List Char)
  | 0, cs => some (skipBlanks cs)
  | bound + 1, cs =>
    match skipBlanks cs with
    | '#' :: cs =>
      match lineFeed? (cs.dropWhile isPlain) with
      | some rest => skipLines bound rest
      | none => none
    | '\n' :: cs => skipLines bound cs
    | '\r' :: cs =>
      match cs with
      | '\n' :: cs => skipLines bound cs
      | _ => none
    | cs => some cs

/-- Blanks, comments and line ends. -/
def skipGap (cs : List Char) : Option (List Char) := skipLines cs.length cs

/-! ## Escapes -/

def hexValue? (c : Char) : Option Nat :=
  if '0' ≤ c ∧ c ≤ '9' then some (c.toNat - 48)
  else if 'a' ≤ c ∧ c ≤ 'f' then some (c.toNat - 87)
  else if 'A' ≤ c ∧ c ≤ 'F' then some (c.toNat - 55)
  else none

/-- The character with the code that hexadecimal digits spell. -/
def charOfHex? (cs : List Char) : Option Char := do
  let code ← cs.foldlM (fun n c => (hexValue? c).map (16 * n + ·)) 0
  if h : code.isValidChar then some (Char.ofNatAux code h) else none

/-- The character that a letter after a backslash stands for. -/
def unescape? (c : Char) : Option Char :=
  if c = 'b' then some '\x08'
  else if c = 't' then some '\t'
  else if c = 'n' then some '\n'
  else if c = 'f' then some '\x0c'
  else if c = 'r' then some '\r'
  else if c = '"' ∨ c = '\\' then some c
  else none

/-- How many hexadecimal digits follow a letter after a backslash. -/
def hexCount? (c : Char) : Option Nat :=
  if c = 'u' then some 4 else if c = 'U' then some 8 else none

/-! ## Strings of one line -/

/-- A string up to its closing quote; `hex` holds the digits of an escape that is being read and
    how many are missing. -/
def basicFrom : (hex : Option (List Char × Nat)) → (escape : Bool) → (done : List Char) →
    List Char → Option (List Char × List Char)
  | _, _, _, [] => none
  | some (ds, n), _, done, c :: cs =>
    if n ≤ 1 then
      match charOfHex? (ds ++ [c]) with
      | some d => basicFrom none false (d :: done) cs
      | none => none
    else basicFrom (some (ds ++ [c], n - 1)) false done cs
  | none, true, done, c :: cs =>
    match unescape? c, hexCount? c with
    | some d, _ => basicFrom none false (d :: done) cs
    | none, some n => basicFrom (some ([], n)) false done cs
    | none, none => none
  | none, false, done, c :: cs =>
    if c = '"' then some (done.reverse, cs)
    else if c = '\\' then basicFrom none true done cs
    else if isPlain c then basicFrom none false (c :: done) cs
    else none

/-- A string between double quotes, of which the first is taken. -/
def basic? (cs : List Char) : Option (String × List Char) :=
  (basicFrom none false [] cs).map fun r => (String.ofList r.1, r.2)

/-- A string between single quotes, of which the first is taken. -/
def literal? (cs : List Char) : Option (String × List Char) :=
  let body := cs.takeWhile fun c => c ≠ '\'' && isPlain c
  match cs.dropWhile fun c => c ≠ '\'' && isPlain c with
  | '\'' :: rest => some (String.ofList body, rest)
  | _ => none

/-! ## Strings of several lines -/

/-- What the next character of a string of several lines is due to be. -/
inductive Due where
  | plain
  /-- Quotes in a row, up to here. -/
  | quotes (n : Nat)
  /-- The line feed after a carriage return. -/
  | feed
  | escape
  | hex (digits : List Char) (missing : Nat)
  /-- Blanks after a backslash, before the end of its line. -/
  | joint
  /-- Blanks and line ends after a backslash at the end of a line. -/
  | joined
  /-- The line feed after a carriage return, after such a backslash; `ended` if its line has
      ended already. -/
  | jointFeed
  deriving DecidableEq, Repr

/-- A string up to three closing quotes, before which two more may stand. Both kinds of quote
    delimit such strings; escapes are read between double quotes only. -/
def longFrom (quote : Char) : Due → (done : List Char) → List Char →
    Option (List Char × List Char)
  | .quotes n, done, [] =>
    if 3 ≤ n then some ((List.replicate (n - 3) quote ++ done).reverse, []) else none
  | _, _, [] => none
  | .quotes n, done, c :: cs =>
    if c = quote ∧ n < 5 then longFrom quote (.quotes (n + 1)) done cs
    else if 3 ≤ n then some ((List.replicate (n - 3) quote ++ done).reverse, c :: cs)
    else
      let done := List.replicate n quote ++ done
      if c = '\\' ∧ quote = '"' then longFrom quote .escape done cs
      else if c = '\r' then longFrom quote .feed done cs
      else if c = '\n' ∨ isPlain c then longFrom quote .plain (c :: done) cs
      else none
  | .plain, done, c :: cs =>
    if c = quote then longFrom quote (.quotes 1) done cs
    else if c = '\\' ∧ quote = '"' then longFrom quote .escape done cs
    else if c = '\r' then longFrom quote .feed done cs
    else if c = '\n' ∨ isPlain c then longFrom quote .plain (c :: done) cs
    else none
  | .feed, done, c :: cs => if c = '\n' then longFrom quote .plain ('\n' :: done) cs else none
  | .escape, done, c :: cs =>
    match unescape? c, hexCount? c with
    | some d, _ => longFrom quote .plain (d :: done) cs
    | none, some n => longFrom quote (.hex [] n) done cs
    | none, none =>
      if isBlank c then longFrom quote .joint done cs
      else if c = '\n' then longFrom quote .joined done cs
      else if c = '\r' then longFrom quote .jointFeed done cs
      else none
  | .hex ds missing, done, c :: cs =>
    if missing ≤ 1 then
      match charOfHex? (ds ++ [c]) with
      | some d => longFrom quote .plain (d :: done) cs
      | none => none
    else longFrom quote (.hex (ds ++ [c]) (missing - 1)) done cs
  | .joint, done, c :: cs =>
    if isBlank c then longFrom quote .joint done cs
    else if c = '\n' then longFrom quote .joined done cs
    else if c = '\r' then longFrom quote .jointFeed done cs
    else none
  | .jointFeed, done, c :: cs => if c = '\n' then longFrom quote .joined done cs else none
  | .joined, done, c :: cs =>
    if isBlank c ∨ c = '\n' then longFrom quote .joined done cs
    else if c = '\r' then longFrom quote .jointFeed done cs
    else if c = quote then longFrom quote (.quotes 1) done cs
    else if c = '\\' then longFrom quote .escape done cs
    else if isPlain c then longFrom quote .plain (c :: done) cs
    else none

/-- A string of several lines whose opening quotes are taken; a line end right after them does
    not belong to it. -/
def long? (quote : Char) (cs : List Char) : Option (String × List Char) :=
  (longFrom quote .plain [] ((lineFeed? cs).getD cs)).map fun r => (String.ofList r.1, r.2)

/-- A string of any form. -/
def string? : List Char → Option (String × List Char)
  | '"' :: '"' :: '"' :: cs => long? '"' cs
  | '"' :: cs => basic? cs
  | '\'' :: '\'' :: '\'' :: cs => long? '\'' cs
  | '\'' :: cs => literal? cs
  | _ => none

/-! ## Keys -/

def isBare (c : Char) : Bool := c.isAlphanum || c == '_' || c == '-'

/-- One part of a key: bare, or a string of one line. -/
def keyPart? (cs : List Char) : Option (String × List Char) :=
  match cs with
  | '"' :: cs => basic? cs
  | '\'' :: cs => literal? cs
  | cs =>
    match cs.takeWhile isBare with
    | [] => none
    | part => some (String.ofList part, cs.dropWhile isBare)

/-- The parts of a key between dots, with blanks around them; `bound` is no less than their
    number. -/
def keyParts : (bound : Nat) → List Char → Option (List String × List Char)
  | 0, _ => none
  | bound + 1, cs => do
    let (part, rest) ← keyPart? (skipBlanks cs)
    match skipBlanks rest with
    | '.' :: rest =>
      let (parts, rest) ← keyParts bound rest
      some (part :: parts, rest)
    | rest => some ([part], rest)

/-- How deep keys and values may nest. -/
def depthLimit : Nat := 80

/-- A key: fewer parts than the limit, and the rest after it and its blanks. -/
def key? (cs : List Char) : Option (List String × List Char) := do
  let (parts, rest) ← keyParts cs.length cs
  if parts.length < depthLimit then some (parts, rest) else none

end CallForm.Toml
