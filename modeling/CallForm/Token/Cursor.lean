/-
  CallForm.Token.Cursor — a place in a list of tokens: those still to come, and how many have
  been taken.
-/

import CallForm.Token

namespace CallForm

structure Cursor where
  rest : List Token
  consumed : Nat := 0
  deriving DecidableEq, Repr

namespace Cursor

def peek (c : Cursor) : Option Token := c.rest.head?

def isExhausted (c : Cursor) : Bool := c.rest.isEmpty

/-- The current token, if there is one, and the place after it. -/
def advance (c : Cursor) : Option Token × Cursor :=
  match c.rest with
  | [] => (none, c)
  | t :: ts => (some t, ⟨ts, c.consumed + 1⟩)

/-- The place at which only `rest` is left; the tokens before it count as taken. -/
def leaving (c : Cursor) (rest : List Token) : Cursor :=
  ⟨rest, c.consumed + (c.rest.length - rest.length)⟩

end Cursor

end CallForm
