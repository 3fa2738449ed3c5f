/-
  CallForm.Source.Reading — trees read from tokens.

  Reading keeps a stack of the calls that are open, innermost first, and takes one token at a
  time: a number or a closed call goes to the innermost open call, or is the answer if none is
  open. At most `limit` calls are open at once. Every request leaves the tokens it did not
  take, also when it fails, so reading can go on there.
-/

import CallForm.Event
import CallForm.Source.Node
import CallForm.Token.Cursor

namespace CallForm.Source

inductive ParseError where
  /-- The tokens ended where an expression or a call's name was due. -/
  | unexpectedEnd
  /-- The tokens ended inside the call of this name. -/
  | unterminated (name : String)
  /-- The token after an opening parenthesis was no name. -/
  | malformedHead (found : Token)
  /-- A token that begins no expression. -/
  | unexpected (found : Token)
  | tooDeep (limit : Nat)
  deriving DecidableEq, Repr

def ParseError.message : ParseError → String
  | .unexpectedEnd => "unexpected end of input"
  | .unterminated name => "call `" ++ name ++ "` is missing its closing parenthesis"
  | .malformedHead found => "expected a call name after `(`, found " ++ found.display
  | .unexpected found => "unexpected token " ++ found.display
  | .tooDeep limit => "calls nested deeper than " ++ limit.repr ++ " levels"

/-- What a request leaves: its answer, the tokens not taken, and the events on the way. -/
structure Reading (α : Type) where
  answer : Except ParseError α
  rest : List Token
  events : List Event

/-- A call whose closing parenthesis is still to come; its newest parameter stands first. -/
structure OpenCall where
  name : String
  params : List Node

def OpenCall.add (call : OpenCall) (node : Node) : OpenCall := ⟨call.name, node :: call.params⟩

def OpenCall.close (call : OpenCall) : Node := .call call.name call.params.reverse

def OpenCall.closed (call : OpenCall) : Event := .closedCall call.name call.params.length

/-- Reads on until the outermost of the open calls is closed, or one expression if none is. -/
def resume (limit : Nat) : List OpenCall → List Token → Reading Node
  | [], [] => ⟨.error .unexpectedEnd, [], []⟩
  | call :: _, [] => ⟨.error (.unterminated call.name), [], []⟩
  | stack, .number digits :: rest =>
    match stack with
    | [] => ⟨.ok (.number digits), rest, []⟩
    | call :: outer => resume limit (call.add (.number digits) :: outer) rest
  | _, .name text :: rest => ⟨.error (.unexpected (.name text)), rest, []⟩
  | stack, .paren c :: rest =>
    if c = '(' then
      if stack.length < limit then
        match rest with
        | [] => ⟨.error .unexpectedEnd, [], []⟩
        | .name name :: rest => resume limit (⟨name, []⟩ :: stack) rest
        | found :: rest => ⟨.error (.malformedHead found), rest, []⟩
      else ⟨.error (.tooDeep limit), rest, []⟩
    else if c = ')' then
      match stack with
      | [] => ⟨.error (.unexpected (.paren c)), rest, []⟩
      | [call] => ⟨.ok call.close, rest, [call.closed]⟩
      | call :: outer :: others =>
        let later := resume limit (outer.add call.close :: others) rest
        ⟨later.answer, later.rest, call.closed :: later.events⟩
    else ⟨.error (.unexpected (.paren c)), rest, []⟩

/-- Reads one expression. -/
def read (limit : Nat) (ts : List Token) : Reading Node := resume limit [] ts

theorem length_rest_resume_le (limit : Nat) (stack : List OpenCall) (ts : List Token) :
    (resume limit stack ts).rest.length ≤ ts.length - 1 := by
  fun_induction resume limit stack ts <;> simp +zetaDelta at * <;> omega

theorem length_rest_read_lt (limit : Nat) {ts : List Token} (h : ts ≠ []) :
    (read limit ts).rest.length < ts.length := by
  have := length_rest_resume_le limit [] ts
  have := List.length_pos_iff.2 h
  rw [read]
  omega

/-- Reads expressions until no token is left. -/
def readAll (limit : Nat) (ts : List Token) : Reading (List Node) :=
  if _h : ts = [] then ⟨.ok [], [], []⟩
  else
    let first := read limit ts
    match first.answer with
    | .error e => ⟨.error e, first.rest, first.events⟩
    | .ok node =>
      let later := readAll limit first.rest
      ⟨later.answer.map (node :: ·), later.rest, first.events ++ later.events⟩
termination_by ts.length
decreasing_by exact length_rest_read_lt limit _h

/-- The program that the tokens spell. -/
def parse (limit : Nat) (ts : List Token) : Logged ParseError Program :=
  let reading := readAll limit ts
  match reading.answer with
  | .error e => ⟨reading.events, .error e⟩
  | .ok body => ⟨reading.events ++ [.parsed ts.length body.length], .ok ⟨body⟩⟩

/-! ## Reading in several requests -/

/-- A depth limit and the place that earlier requests have reached. -/
structure Reader where
  limit : Nat
  cursor : Cursor
  deriving DecidableEq, Repr

namespace Reader

def ofTokens (limit : Nat) (ts : List Token) : Reader := ⟨limit, ⟨ts, 0⟩⟩

def after (r : Reader) (rest : List Token) : Reader := ⟨r.limit, r.cursor.leaving rest⟩

def expression (r : Reader) : Except ParseError Node × Reader :=
  let reading := read r.limit r.cursor.rest
  (reading.answer, r.after reading.rest)

def program (r : Reader) : Except ParseError Program × Reader :=
  let reading := readAll r.limit r.cursor.rest
  (reading.answer.map Program.mk, r.after reading.rest)

end Reader

end CallForm.Source
