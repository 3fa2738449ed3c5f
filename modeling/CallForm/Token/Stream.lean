/-
  CallForm.Token.Stream — a text read from the front, piece by piece.

  At a place that is not blank stands a token, as long as it can be, or one stray. Two loops go
  over the pieces: one keeps tokens and drops strays, the other keeps lexemes and asks the
  policy about each stray as it comes. `CallForm.Proofs.Token.Agreement` proves that they answer
  as `tokens` and `lexemes` do.
-/

import CallForm.Token.Lexeme

namespace CallForm

/-- What stands at a place of a text: a token or a stray, with its bytes. -/
inductive Piece where
  | lexeme (x : Lexeme)
  | stray (x : Stray)
  deriving DecidableEq, Repr

namespace Piece

def lexeme? : Piece → Option Lexeme
  | .lexeme x => some x
  | .stray _ => none

def stray? : Piece → Option Stray
  | .lexeme _ => none
  | .stray x => some x

def token? : Piece → Option Token
  | .lexeme x => some x.token
  | .stray _ => none

/-- The characters at the front of a text that are of the class. -/
def run (k : CharClass) (cs : List Char) : List Char := cs.takeWhile (CharClass.of · == k)

/-- The text behind the characters of the class at its front. -/
def afterRun (k : CharClass) (cs : List Char) : List Char := cs.dropWhile (CharClass.of · == k)

theorem run_append_afterRun (k : CharClass) (cs : List Char) : run k cs ++ afterRun k cs = cs :=
  List.takeWhile_append_dropWhile

theorem length_afterRun_le (k : CharClass) (cs : List Char) :
    (afterRun k cs).length ≤ cs.length :=
  (List.dropWhile_sublist _).length_le

/-- The pieces of a text whose first character stands at byte `start`. -/
def scan (start : Nat) : List Char → List Piece
  | [] => []
  | c :: cs =>
    let next := start + c.utf8Size
    match CharClass.of c with
    | .paren => .lexeme ⟨.paren c, start, next⟩ :: scan next cs
    | .letter =>
      let name := String.ofList (c :: run .letter cs)
      let stop := start + name.utf8ByteSize
      .lexeme ⟨.name name, start, stop⟩ :: scan stop (afterRun .letter cs)
    | .digit =>
      let digits := String.ofList (c :: run .digit cs)
      let stop := start + digits.utf8ByteSize
      .lexeme ⟨.number digits, start, stop⟩ :: scan stop (afterRun .digit cs)
    | .blank => scan next cs
    | .stray => .stray ⟨c, start, next⟩ :: scan next cs
termination_by cs => cs.length
decreasing_by
  all_goals
    have hletter := length_afterRun_le .letter cs
    have hdigit := length_afterRun_le .digit cs
    simp only [List.length_cons]
    omega

/-- Keeps the lexemes of the pieces behind those that are found already. A stray is passed over
    or ends the loop. -/
def gather (policy : StrayPolicy) (found : List Lexeme) :
    List Piece → Except LexError (List Lexeme)
  | [] => .ok found
  | .lexeme x :: later => gather policy (found ++ [x]) later
  | .stray x :: later =>
    match policy with
    | .skip => gather policy found later
    | .reject => .error (.unrecognized x.char)

end Piece

/-- The tokens among the pieces of a text. -/
def keptTokens (source : String) : List Token :=
  (Piece.scan 0 source.toList).filterMap Piece.token?

/-- The lexemes of a text, as the policy lets them be gathered. -/
def gatheredLexemes (policy : StrayPolicy) (source : String) : Except LexError (List Lexeme) :=
  Piece.gather policy [] (Piece.scan 0 source.toList)

end CallForm
