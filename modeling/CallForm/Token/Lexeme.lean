/-
  CallForm.Token.Lexeme — source text cut into tokens with their byte spans.

  Each character falls into one class. A parenthesis is a token by itself; letters a-z and
  digits 0-9 join the neighbour of the same class on their right, so each run becomes one
  token as long as it can be; blanks and strays end a run and leave nothing.
-/

import CallForm.Event
import CallForm.Text.Blank
import CallForm.Token

namespace CallForm

inductive CharClass where
  | paren
  | letter
  | digit
  | blank
  | stray
  deriving DecidableEq, Repr

def CharClass.of (c : Char) : CharClass :=
  if c = '(' ∨ c = ')' then .paren
  else if 'a' ≤ c ∧ c ≤ 'z' then .letter
  else if '0' ≤ c ∧ c ≤ '9' then .digit
  else if Text.isBlank c then .blank
  else .stray

/-- A character outside the alphabet: no parenthesis, letter, digit or blank. -/
def isStray (c : Char) : Bool := CharClass.of c == .stray

/-- A token and the half-open range of bytes it covers. -/
structure Lexeme where
  token : Token
  start : Nat
  stop : Nat
  deriving DecidableEq, Repr

namespace Lexeme

/-- The same token `n` bytes further on. -/
def shift (n : Nat) (x : Lexeme) : Lexeme := ⟨x.token, n + x.start, n + x.stop⟩

/-- Puts the character at byte `start` in front of the lexemes that follow it: a letter or a
    digit joins a run of its own class that begins at the very next byte. -/
def attach (start : Nat) (c : Char) (later : List Lexeme) : List Lexeme :=
  let stop := start + c.utf8Size
  match CharClass.of c with
  | .paren => ⟨.paren c, start, stop⟩ :: later
  | .letter =>
    match later with
    | ⟨.name run, next, last⟩ :: others =>
      if next = stop then ⟨.name (String.singleton c ++ run), start, last⟩ :: others
      else ⟨.name (String.singleton c), start, stop⟩ :: later
    | _ => ⟨.name (String.singleton c), start, stop⟩ :: later
  | .digit =>
    match later with
    | ⟨.number run, next, last⟩ :: others =>
      if next = stop then ⟨.number (String.singleton c ++ run), start, last⟩ :: others
      else ⟨.number (String.singleton c), start, stop⟩ :: later
    | _ => ⟨.number (String.singleton c), start, stop⟩ :: later
  | .blank => later
  | .stray => later

/-- The lexemes of a text whose first character stands at byte `start`. -/
def scan (start : Nat) : List Char → List Lexeme
  | [] => []
  | c :: cs => attach start c (scan (start + c.utf8Size) cs)

@[simp] theorem scan_nil (start : Nat) : scan start [] = [] := rfl

@[simp] theorem scan_cons (start : Nat) (c : Char) (cs : List Char) :
    scan start (c :: cs) = attach start c (scan (start + c.utf8Size) cs) := rfl

end Lexeme

/-- A stray character and the half-open range of bytes it covers. -/
structure Stray where
  char : Char
  start : Nat
  stop : Nat
  deriving DecidableEq, Repr

/-- The strays of a text whose first character stands at byte `start`, in order. -/
def Stray.scan (start : Nat) : List Char → List Stray
  | [] => []
  | c :: cs =>
    let later := Stray.scan (start + c.utf8Size) cs
    if isStray c then ⟨c, start, start + c.utf8Size⟩ :: later else later

def Stray.skipped (x : Stray) : Event := .skipped x.char x.start x.stop

/-- The tokens of a text; strays are dropped. -/
def tokens (source : String) : List Token := (Lexeme.scan 0 source.toList).map (·.token)

/-! ## Lexing under a policy -/

inductive LexError where
  | unrecognized (c : Char)
  deriving DecidableEq, Repr

def LexError.message : LexError → String
  | .unrecognized c => "unrecognized character " ++ Text.quotedChar c

/-- The lexemes of a text; under `reject` its first stray is an error. -/
def lexemes (policy : StrayPolicy) (source : String) : Except LexError (List Lexeme) :=
  match policy with
  | .skip => .ok (Lexeme.scan 0 source.toList)
  | .reject =>
    match source.toList.find? isStray with
    | some c => .error (.unrecognized c)
    | none => .ok (Lexeme.scan 0 source.toList)

/-- The tokens of a text, reporting each stray that was skipped. -/
def lex (policy : StrayPolicy) (source : String) : Logged LexError (List Token) :=
  match lexemes policy source with
  | .error e => .fail e
  | .ok found =>
    ⟨(Stray.scan 0 source.toList).map Stray.skipped ++ [.tokenized found.length policy],
     .ok (found.map (·.token))⟩

end CallForm
