/-
  CallForm.Target.Code — the code of a target tree: statements joined by the statement
  separator, a call as its callee and its arguments in parentheses, joined by the argument
  separator; names and digits as they are. A string is an error, or quoted as JSON if the
  style says so; of several errors the first in order counts.
-/

import CallForm.Json.Writer
import CallForm.Settings
import CallForm.Target.Node

namespace CallForm.Target

inductive CodeError where
  /-- Nodes of this kind have no code. -/
  | unsupported (kind : Node.Kind)
  deriving DecidableEq, Repr

def CodeError.message : CodeError → String
  | .unsupported kind => "cannot generate code for " ++ kind.name ++ " nodes"

/-- The code of a call whose arguments are already written. -/
def callCode (style : CodeStyle) (callee : String) (arguments : List String) : String :=
  callee ++ "(" ++ style.argumentSeparator.intercalate arguments ++ ")"

mutual

def Node.code (style : CodeStyle) : Node → Except CodeError String
  | .program body => (Node.codes style body).map style.statementSeparator.intercalate
  | .statement callee arguments => (Node.codes style arguments).map (callCode style callee)
  | .call callee arguments => (Node.codes style arguments).map (callCode style callee)
  | .identifier name => .ok name
  | .number digits => .ok digits
  | .string value =>
    match style.strings with
    | .reject => .error (.unsupported .string)
    | .quote => .ok (Json.quoted value)

def Node.codes (style : CodeStyle) : List Node → Except CodeError (List String)
  | [] => .ok []
  | node :: nodes =>
    match Node.code style node with
    | .error e => .error e
    | .ok text => (Node.codes style nodes).map (text :: ·)

end

def Program.code (style : CodeStyle) (p : Program) : Except CodeError String :=
  (Node.program p.body).code style

end CallForm.Target
