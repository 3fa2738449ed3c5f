/-
  CallForm.Source.Descent — reading by recursive descent.

  The same language as in `CallForm.Source.Reading`, but the open calls are those the reader is
  in, and a 64-bit word counts them: up when a call begins, down when it ends, with a node or
  with an error. A routine is given by its runs (`Runs`), each with its answer and the state it
  leaves, so nothing here says that it ends. `CallForm.Proofs.Source.Descent` proves that every
  routine ends, that the counter is exact, and that the answers are those of `Reader`.
-/

import CallForm.Source.Reading

namespace CallForm.Source

/-- What a reader is asked for: one expression, or all of the program that is left. -/
inductive Request where
  | expression
  | program
  deriving DecidableEq, Repr

inductive Reply where
  | node (answer : Except ParseError Node)
  | program (answer : Except ParseError Program)

def Reply.failed : Reply → Bool
  | .node (.error _) | .program (.error _) => true
  | .node (.ok _) | .program (.ok _) => false

def Reader.respond (r : Reader) : Request → Reply × Reader
  | .expression => (.node r.expression.1, r.expression.2)
  | .program => (.program r.program.1, r.program.2)

/-- A change of the counter. -/
structure Turn where
  old : UInt64
  new : UInt64
  deriving DecidableEq, Repr

/-- The counter went up or down by one, without wrapping around, and within the limit. -/
def Turn.Exact (limit : UInt64) (t : Turn) : Prop :=
  (t.new.toNat = t.old.toNat + 1 ∨ t.old.toNat = t.new.toNat + 1) ∧ t.old ≤ limit ∧ t.new ≤ limit

/-- A reader that counts the calls it is in. -/
structure Descent where
  limit : UInt64
  cursor : Cursor
  depth : UInt64 := 0
  /-- All changes of the counter, newest first. -/
  turns : List Turn := []
  deriving DecidableEq, Repr

namespace Descent

def ofTokens (limit : UInt64) (ts : List Token) : Descent := { limit, cursor := ⟨ts, 0⟩ }

/-- The current token, if there is one, and the state after it. -/
def advance (s : Descent) : Option Token × Descent :=
  (s.cursor.advance.1, { s with cursor := s.cursor.advance.2 })

def turnTo (s : Descent) (depth : UInt64) : Descent :=
  { s with depth := depth, turns := ⟨s.depth, depth⟩ :: s.turns }

/-- What the reader is about: an expression, a call whose parenthesis is taken, the name of a
    call that has been counted, or what follows the name and these parameters. -/
inductive Task where
  | expression
  | call
  | head
  | operands (name : String) (params : List Node)

/-- The runs of the four routines: from a state, with an answer, to a state. -/
inductive Runs : Task → Descent → Except ParseError Node → Descent → Prop
  | nothing {s s' : Descent} : s.advance = (none, s') →
      Runs .expression s (.error .unexpectedEnd) s'
  | number {s s' : Descent} {digits : String} : s.advance = (some (.number digits), s') →
      Runs .expression s (.ok (.number digits)) s'
  | opened {s s₁ s' : Descent} {a : Except ParseError Node} :
      s.advance = (some (.paren '('), s₁) → Runs .call s₁ a s' → Runs .expression s a s'
  | unexpected {s s' : Descent} {found : Token} : s.advance = (some found, s') →
      (∀ digits, found ≠ .number digits) → found ≠ .paren '(' →
      Runs .expression s (.error (.unexpected found)) s'
  | tooDeep {s : Descent} : s.depth = s.limit →
      Runs .call s (.error (.tooDeep s.limit.toNat)) s
  | counted {s s₁ : Descent} {a : Except ParseError Node} : s.depth ≠ s.limit →
      Runs .head (s.turnTo (s.depth + 1)) a s₁ → Runs .call s a (s₁.turnTo (s₁.depth - 1))
  | headless {s s' : Descent} : s.advance = (none, s') →
      Runs .head s (.error .unexpectedEnd) s'
  | malformed {s s' : Descent} {found : Token} : s.advance = (some found, s') →
      found.isName = false → Runs .head s (.error (.malformedHead found)) s'
  | named {s s₁ s' : Descent} {name : String} {a : Except ParseError Node} :
      s.advance = (some (.name name), s₁) → Runs (.operands name []) s₁ a s' → Runs .head s a s'
  | unterminated {s : Descent} {name : String} {params : List Node} : s.cursor.peek = none →
      Runs (.operands name params) s (.error (.unterminated name)) s
  | closed {s : Descent} {name : String} {params : List Node} {t : Token} :
      s.cursor.peek = some t → t.isClose = true →
      Runs (.operands name params) s (.ok (.call name params)) s.advance.2
  | operand {s s₁ s' : Descent} {name : String} {params : List Node} {t : Token} {q : Node}
      {a : Except ParseError Node} : s.cursor.peek = some t → t.isClose = false →
      Runs .expression s (.ok q) s₁ → Runs (.operands name (params ++ [q])) s₁ a s' →
      Runs (.operands name params) s a s'
  | failed {s s' : Descent} {name : String} {params : List Node} {t : Token} {e : ParseError} :
      s.cursor.peek = some t → t.isClose = false → Runs .expression s (.error e) s' →
      Runs (.operands name params) s (.error e) s'

/-- The runs of the loop over a program, of which `body` is read already. -/
inductive Loops : List Node → Descent → Except ParseError Program → Descent → Prop
  | done {body : List Node} {s : Descent} : s.cursor.isExhausted = true →
      Loops body s (.ok ⟨body⟩) s
  | more {body : List Node} {s s₁ s' : Descent} {q : Node} {a : Except ParseError Program} :
      s.cursor.isExhausted = false → Runs .expression s (.ok q) s₁ →
      Loops (body ++ [q]) s₁ a s' → Loops body s a s'
  | failed {body : List Node} {s s' : Descent} {e : ParseError} : s.cursor.isExhausted = false →
      Runs .expression s (.error e) s' → Loops body s (.error e) s'

/-- The runs of a request. -/
inductive Answers : Request → Descent → Reply → Descent → Prop
  | expression {s s' : Descent} {a : Except ParseError Node} : Runs .expression s a s' →
      Answers .expression s (.node a) s'
  | program {s s' : Descent} {a : Except ParseError Program} : Loops [] s a s' →
      Answers .program s (.program a) s'

/-- Requests made one after the other of one reader, with their replies, newest first. -/
inductive Session (s : Descent) : List (Request × Reply) → Descent → Prop
  | fresh : Session s [] s
  | next {past : List (Request × Reply)} {s₁ s' : Descent} {q : Request} {reply : Reply} :
      Session s past s₁ → Answers q s₁ reply s' → Session s ((q, reply) :: past) s'

end Descent

end CallForm.Source
