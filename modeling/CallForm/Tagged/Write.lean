/-
  CallForm.Tagged.Write — trees and tokens as JSON values. A node is an object whose first
  member `type` names its kind; a token is an object whose only member is named for its kind.
-/

import CallForm.Json
import CallForm.Source.Node
import CallForm.Target.Node

namespace CallForm

def Token.json : Token → Json
  | .paren c => .object [("Paren", .string (String.singleton c))]
  | .name text => .object [("Name", .string text)]
  | .number digits => .object [("Number", .string digits)]

/-- An object that names its kind first. -/
def Json.tagged (kind : String) (members : List (String × Json)) : Json :=
  .object (("type", .string kind) :: members)

namespace Source

mutual

def Node.json : Node → Json
  | .program body => .tagged "Program" [("body", .array (Node.jsons body))]
  | .call name params =>
    .tagged "CallExpression" [("name", .string name), ("params", .array (Node.jsons params))]
  | .number digits => .tagged "NumberLiteral" [("value", .string digits)]
  | .string value => .tagged "StringLiteral" [("value", .string value)]

def Node.jsons : List Node → List Json
  | [] => []
  | node :: nodes => node.json :: Node.jsons nodes

end

def Program.json (p : Program) : Json := (Node.program p.body).json

end Source

namespace Target

/-- An identifier, on its own or as a call's callee. -/
def identifierJson (name : String) : Json := .tagged "Identifier" [("name", .string name)]

/-- A call, on its own or as a statement's expression. -/
def callJson (callee : String) (arguments : List Json) : Json :=
  .tagged "CallExpression" [("callee", identifierJson callee), ("arguments", .array arguments)]

mutual

def Node.json : Node → Json
  | .program body => .tagged "Program" [("body", .array (Node.jsons body))]
  | .statement callee arguments =>
    .tagged "ExpressionStatement" [("expression", callJson callee (Node.jsons arguments))]
  | .call callee arguments => callJson callee (Node.jsons arguments)
  | .identifier name => identifierJson name
  | .number digits => .tagged "NumberLiteral" [("value", .string digits)]
  | .string value => .tagged "StringLiteral" [("value", .string value)]

def Node.jsons : List Node → List Json
  | [] => []
  | node :: nodes => node.json :: Node.jsons nodes

end

def Program.json (p : Program) : Json := (Node.program p.body).json

end Target

end CallForm
