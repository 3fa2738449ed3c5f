/-
  CallForm.Drawing — trees drawn one line a node. A line begins with a guide for each ancestor
  below the root, `│ ` if a later sibling of it follows and blanks if not; then comes the
  node's own connector and its kind and label. Labels are cut after thirty characters.

  In a target tree a statement has its call as only child, and a call has its callee as first
  child, before its arguments.
-/

import CallForm.Source.Node
import CallForm.Target.Node

namespace CallForm

/-- A drawn node: the text of its line, and the nodes below it. -/
inductive Drawing where
  | node (title : String) (children : List Drawing)

namespace Drawing

/-- A label as it is shown: at most thirty characters, with dots in place of the rest. -/
def cut (label : String) : String :=
  if 30 < label.length then String.ofList (label.toList.take 30) ++ "..." else label

/-- The line of a node, without its guides. -/
def title (kind label : String) : String := kind ++ ": " ++ cut label

def connector (last : Bool) : String := if last then "└─" else "├─"

def guide (last : Bool) : String := if last then "  " else "│ "

mutual

/-- The lines of a node and of all nodes below it, each after the given margin. -/
def text (margin : String) (last : Bool) : Drawing → String
  | .node title children =>
    margin ++ connector last ++ " " ++ title ++ "\n" ++ texts (margin ++ guide last) children

/-- The lines of siblings, of which the last one has no later sibling. -/
def texts (margin : String) : List Drawing → String
  | [] => ""
  | d :: ds => text margin ds.isEmpty d ++ texts margin ds

end

end Drawing

namespace Source

mutual

def Node.drawing : Node → Drawing
  | .program body => .node (Drawing.title "Program" (Node.program body).label) (Node.drawings body)
  | .call name params => .node (Drawing.title "CallExpression" name) (Node.drawings params)
  | .number digits => .node (Drawing.title "NumberLiteral" digits) []
  | .string value => .node (Drawing.title "StringLiteral" (Text.quoted value)) []

def Node.drawings : List Node → List Drawing
  | [] => []
  | node :: nodes => node.drawing :: Node.drawings nodes

end

/-- The drawing of all nodes below the root. -/
def Program.drawn (p : Program) : String := Drawing.texts "" (Node.drawings p.body)

end Source

namespace Target

def callDrawing (callee : String) (arguments : List Drawing) : Drawing :=
  .node (Drawing.title "CallExpression" callee)
    (.node (Drawing.title "Identifier" callee) [] :: arguments)

mutual

def Node.drawing : Node → Drawing
  | .program body => .node (Drawing.title "Program" (Node.program body).label) (Node.drawings body)
  | .statement callee arguments =>
    .node (Drawing.title "ExpressionStatement" callee)
      [callDrawing callee (Node.drawings arguments)]
  | .call callee arguments => callDrawing callee (Node.drawings arguments)
  | .identifier name => .node (Drawing.title "Identifier" name) []
  | .number digits => .node (Drawing.title "NumberLiteral" digits) []
  | .string value => .node (Drawing.title "StringLiteral" (Text.quoted value)) []

def Node.drawings : List Node → List Drawing
  | [] => []
  | node :: nodes => node.drawing :: Node.drawings nodes

end

/-- The drawing of all nodes below the root. -/
def Program.drawn (p : Program) : String := Drawing.texts "" (Node.drawings p.body)

end Target

end CallForm
